import NodeAttestation.Proofs.Cache.Records
import NodeAttestation.Proofs.Verification.Transition
import NodeAttestation.Verification.Scripted

/-!
# Of which node a verification is

What a task has found out about the node of its attestation, under a verifier that validates an
attestation for no other node than the one as which it identifies it.
-/

namespace NodeAttestation

def Verifier.Agrees (verifier : Verifier) : Prop :=
  ∀ id a w clock v node other, (verifier.identify id a w).verdict = .accepted (some node) →
    ((verifier.validate id a w).rule clock).verdict = .accepted v → v.node = some other →
      other = node

theorem VerifierScript.node_eq_of_rule {s : VerifierScript} {a : Attestation}
    {clock : Option Instant} {v : Validated} (h : (s.rule a clock).verdict = .accepted v) :
    v.node = s.validatedNode := by
  cases clock with
  | none => cases h
  | some now =>
    dsimp only [rule, ruling] at h
    split at h
    all_goals cases h
    rename_i validated
    rw [validated?, Option.map_eq_some_iff] at validated
    obtain ⟨expiry, -, rfl⟩ := validated
    rfl

theorem VerifierScript.node_eq_of_identify {s : VerifierScript} {node : String}
    (h : s.identify.verdict = .accepted (some node)) : s.node = some node := by
  dsimp only [identify, ruling] at h
  split at h
  all_goals cases h
  rename_i hnode
  exact Option.some.inj hnode

theorem VerifierLists.agrees (l : VerifierLists) : l.verifier.Agrees := by
  intro id a w clock v node other identified validated hother
  have hnode : (l.script a).node = some node := VerifierScript.node_eq_of_identify identified
  have hvalidated : v.node = (l.script a).validatedNode := VerifierScript.node_eq_of_rule validated
  rw [hother] at hvalidated
  dsimp only [script] at hnode hvalidated
  split at hnode
  · cases hnode
  · split at hvalidated
    · cases hvalidated
    · exact (Option.some.inj hvalidated).trans (Option.some.inj hnode)

namespace Task

def Identified (task : Task) (job : Assignment) (node : String) : Prop :=
  (task.identity job).verdict = .accepted (some node)

/-- Whether a task has found no live record of its node and goes through the full validation. -/
def Stage.isUnknown : Stage → Bool
  | .unknown | .asleep _ _ | .validating _ | .validated _ | .approved _ _ => true
  | _ => false

/-- A task is about to validate an attestation of the node in full, or has done so. -/
def Validates (task : Task) (job : Assignment) (node : String) : Prop :=
  task.stage.isUnknown = true ∧ task.Identified job node

/-- The node of which a stage speaks is the one that has been identified. -/
def Vouched (task : Task) (job : Assignment) : Prop :=
  match task.stage with
  | .submitted => True
  | .identified node | .known node => task.Identified job node
  | .unknown | .asleep _ _ | .validating _ => ∃ node, task.Identified job node
  | .validated v => ∃ node, task.Identified job node ∧ ∀ other, v.node = some other → other = node
  | .approved v node => task.Identified job node ∧ v.node = some node

section Steps

variable {job : Assignment} {timer : Nat} {task : Task} {c next : Client} {node : String}

theorem Identified.unique {other : String} (h : task.Identified job node)
    (hother : task.Identified job other) : other = node := by
  unfold Identified at h hother
  rw [h] at hother
  cases hother
  rfl

theorem vouched_of_submitted (h : task.stage = .submitted) : task.Vouched job := by
  unfold Vouched
  rw [h]
  exact trivial

theorem not_validates_of_submitted (h : task.stage = .submitted) : ¬task.Validates job node := by
  intro validates
  have hunknown := validates.1
  rw [h] at hunknown
  cases hunknown

theorem Transition.vouched {stage : Stage} (agrees : job.verifier.Agrees)
    (vouched : task.Vouched job) (transition : Transition job timer task c (.going stage) next) :
    ({ task with stage := stage } : Task).Vouched job := by
  unfold Vouched at vouched
  generalize hp : Progress.going stage = progress at transition
  cases transition with
  | identified _ verdict =>
    cases hp
    exact verdict
  | known hstage =>
    cases hp
    rw [hstage] at vouched
    exact vouched
  | unknown hstage =>
    cases hp
    rw [hstage] at vouched
    exact ⟨_, vouched⟩
  | begun hstage | slept hstage | woken hstage =>
    cases hp
    rw [hstage] at vouched
    exact vouched
  | accepted hstage verdict =>
    cases hp
    rw [hstage] at vouched
    obtain ⟨node, identified⟩ := vouched
    refine ⟨node, identified, ?_⟩
    intro other hother
    exact agrees _ _ _ _ _ _ _ identified verdict hother
  | approved hstage named =>
    cases hp
    rw [hstage] at vouched
    obtain ⟨node, identified, hnode⟩ := vouched
    cases hnode _ named
    exact ⟨identified, named⟩
  | tracked => exact absurd hp.symm (onTracked_ne_going _ _ _ _)
  | saved => exact absurd hp.symm (onSaved_ne_going _ _ _ _ _)
  | _ => cases hp

/-- A task only begins to validate when its node has been looked up and has no live record. -/
theorem Transition.validates {stage : Stage} (vouched : task.Vouched job)
    (transition : Transition job timer task c (.going stage) next)
    (validates : ({ task with stage := stage } : Task).Validates job node) :
    task.Validates job node ∨
      ∃ now, c.now? = some now ∧ c.cache.isLive now node = false := by
  obtain ⟨hunknown, hidentified⟩ := validates
  have hnode : task.Identified job node := hidentified
  generalize hp : Progress.going stage = progress at transition
  cases transition with
  | @unknown found now hstage clock dead =>
    rw [Vouched, hstage] at vouched
    cases Identified.unique vouched hnode
    exact .inr ⟨now, clock, dead⟩
  | begun hstage | slept hstage | woken hstage | accepted hstage | approved hstage =>
    exact .inl ⟨by rw [hstage]; rfl, hnode⟩
  | identified | known =>
    cases hp
    cases hunknown
  | tracked => exact absurd hp.symm (onTracked_ne_going _ _ _ _)
  | saved => exact absurd hp.symm (onSaved_ne_going _ _ _ _ _)
  | _ => cases hp

/-- The record of a node is only replaced by the task that has validated it. -/
theorem Transition.record_eq {progress : Progress} (vouched : task.Vouched job)
    (transition : Transition job timer task c progress next)
    (unvalidated : ¬task.Validates job node) :
    next.cache.records.find? node = c.cache.records.find? node := by
  rw [transition.cache_eq]
  cases hstage : task.stage with
  | known other =>
    rw [Stage.write, Cache.records_track]
  | approved v other =>
    rw [Vouched, hstage] at vouched
    apply Cache.find?_records_save_of_ne
    intro hnode
    cases vouched.2.symm.trans hnode
    exact unvalidated ⟨by rw [hstage]; rfl, vouched.1⟩
  | _ => rfl

end Steps

end Task

end NodeAttestation
