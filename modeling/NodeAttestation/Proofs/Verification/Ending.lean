import NodeAttestation.Proofs.Verification.Identification

/-!
# How verifications end, and what is reported of them

A full validation that is refused is reported, and nothing else is: not that an attestation cannot
be identified, that its node has no identifier or that it would be valid for too long.
-/

namespace NodeAttestation

def Action.event? : Action → Option Event
  | .emitted event => some event
  | _ => none

namespace Client

/-- A client comes after another one, and has emitted these events since. -/
def Emits (c : Client) (events : List Event) (next : Client) : Prop :=
  ∃ actions, next.log = c.log ++ actions ∧ actions.filterMap Action.event? = events

variable {c d next : Client} {events more : List Event}

theorem Emits.trans (first : c.Emits events d) (second : d.Emits more next) :
    c.Emits (events ++ more) next := by
  obtain ⟨actions, hlog, hevents⟩ := first
  obtain ⟨later, hlater, hmore⟩ := second
  refine ⟨actions ++ later, ?_, ?_⟩
  · rw [hlater, hlog, List.append_assoc]
  · rw [List.filterMap_append, hevents, hmore]

theorem emits_of_log_eq (log : next.log = c.log) : c.Emits [] next :=
  ⟨[], by rw [log, List.append_nil], rfl⟩

theorem emits_record (c : Client) (action : Action) :
    c.Emits action.event?.toList (c.record action) := by
  refine ⟨[action], rfl, ?_⟩
  cases action <;> rfl

end Client

namespace Task

/-- What the full validation of an attestation comes to at some time. -/
def Rules (task : Task) (job : Assignment) (verdict : Verdict Validated) : Prop :=
  ∃ now?, ((task.validation job).rule now?).verdict = verdict

/-- What the verifier has said by the time that a task is at its stage. -/
def Heard (task : Task) (job : Assignment) : Prop :=
  match task.stage with
  | .submitted => True
  | .identified node | .known node => task.Identified job node
  | .unknown | .asleep _ _ | .validating _ => ∃ node, task.Identified job node
  | .validated v => (∃ node, task.Identified job node) ∧ task.Rules job (.accepted v)
  | .approved v node =>
    (∃ node, task.Identified job node) ∧ task.Rules job (.accepted v) ∧ v.node = some node

/-- All that a verification can come to by the answers of the verifier, and what is reported. -/
inductive Ends (job : Assignment) (task : Task) : Outcome → Option FailureMetric → Prop
  | unidentified {error : VerificationError}
      (refused : (task.identity job).verdict = .refused error) :
      Ends job task (task.attestation.outcome (.invalid error) false none) none
  | nameless (unnamed : (task.identity job).verdict = .accepted none) :
      Ends job task (task.attestation.outcome .noIdentifier false none) none
  | duplicate {node : String} (identified : task.Identified job node) :
      Ends job task (task.attestation.outcome .alreadyInBatch false (some node)) none
  | tracked {node : String} (identified : task.Identified job node) :
      Ends job task (task.attestation.outcome .validationNotNeeded true (some node)) none
  | invalid {node : String} {error : VerificationError} {since : Nat} {now : Instant} {c : Client}
      (identified : task.Identified job node) (refused : task.Rules job (.refused error)) :
      Ends job task (task.attestation.outcome (.invalid error) false none)
        (some (task.failure job since error now c))
  | anonymous {node : String} {v : Validated} (identified : task.Identified job node)
      (accepted : task.Rules job (.accepted v)) (unnamed : v.node = none) :
      Ends job task (task.attestation.outcome .noIdentifier false none) none
  | overlong {node : String} {v : Validated} {now : Instant}
      (identified : task.Identified job node) (accepted : task.Rules job (.accepted v))
      (long : tooLong v now = true) :
      Ends job task (task.attestation.outcome .expiryTooLarge false none) none
  | saved {node : String} {v : Validated} {found : String}
      (identified : task.Identified job node) (accepted : task.Rules job (.accepted v))
      (named : v.node = some found) :
      Ends job task (task.attestation.outcome (.valid v.publicKey v.expiry) true (some found)) none
  | repeated {node : String} {v : Validated} {found : String}
      (identified : task.Identified job node) (accepted : task.Rules job (.accepted v))
      (named : v.node = some found) :
      Ends job task (task.attestation.outcome .alreadyInBatch false (some found)) none

variable {job : Assignment} {timer : Nat} {task : Task} {c next : Client} {outcome : Outcome}
  {report? : Option FailureMetric}

section Reports

/-- An attestation has been identified, but its full validation has been refused. -/
def Fails (task : Task) (job : Assignment) (outcome : Outcome) : Prop :=
  (∃ node, task.Identified job node) ∧
    ∃ error, task.Rules job (.refused error) ∧ outcome.finding = .invalid error

theorem Ends.isSome_report_iff (ends : task.Ends job outcome report?) :
    report?.isSome = true ↔ task.Fails job outcome := by
  cases ends with
  | unidentified refused =>
    refine iff_of_false Bool.false_ne_true ?_
    rintro ⟨⟨node, identified⟩, -⟩
    cases refused.symm.trans identified
  | invalid identified refused => exact iff_of_true rfl ⟨⟨_, identified⟩, _, refused, rfl⟩
  | _ =>
    refine iff_of_false Bool.false_ne_true ?_
    rintro ⟨-, _, -, hfinding⟩
    cases hfinding

/-- A report goes by the identifier of the batch and gives nothing of the reason away. -/
theorem Ends.report_eq {metric : FailureMetric} (ends : task.Ends job outcome (some metric)) :
    metric.request = job.reportedAs ∧ metric.reporting = job.reporting ∧
      metric.node = task.attestation.node ∧
      ∃ error, outcome.finding = .invalid error ∧ metric.error = error.publicName := by
  cases ends with
  | invalid => exact ⟨rfl, rfl, rfl, _, rfl, rfl⟩

end Reports

section Steps

theorem heard_of_submitted (h : task.stage = .submitted) : task.Heard job := by
  unfold Heard
  rw [h]
  exact trivial

theorem Transition.heard {stage : Stage} (heard : task.Heard job)
    (transition : Transition job timer task c (.going stage) next) :
    ({ task with stage := stage } : Task).Heard job := by
  unfold Heard at heard
  generalize hp : Progress.going stage = progress at transition
  cases transition with
  | identified _ verdict =>
    cases hp
    exact verdict
  | known hstage =>
    cases hp
    rw [hstage] at heard
    exact heard
  | unknown hstage =>
    cases hp
    rw [hstage] at heard
    exact ⟨_, heard⟩
  | begun hstage | slept hstage | woken hstage =>
    cases hp
    rw [hstage] at heard
    exact heard
  | accepted hstage verdict =>
    cases hp
    rw [hstage] at heard
    exact ⟨heard, _, verdict⟩
  | approved hstage identified =>
    cases hp
    rw [hstage] at heard
    exact ⟨heard.1, heard.2, identified⟩
  | tracked => exact absurd hp.symm (onTracked_ne_going _ _ _ _)
  | saved => exact absurd hp.symm (onSaved_ne_going _ _ _ _ _)
  | _ => cases hp

/-- Only the report of a failure is an event. -/
theorem Transition.emits_nil {progress : Progress}
    (transition : Transition job timer task c progress next)
    (unfinished : ∀ o, progress ≠ .finished (some o)) : c.Emits [] next := by
  cases transition with
  | identified | nameless | unidentified | lost | begun | slept => exact c.emits_record _
  | refused => exact absurd rfl (unfinished _)
  | _ => exact Client.emits_of_log_eq rfl

theorem ends_of_onTracked {node : String} (identified : task.Identified job node) (already : Bool)
    (h : task.onTracked node already = .finished (some outcome)) : task.Ends job outcome none := by
  cases already with
  | true =>
    cases h
    exact .duplicate identified
  | false =>
    cases h
    exact .tracked identified

theorem ends_of_onSaved {v : Validated} {node : String} {c : Cache} (heard : task.Heard job)
    (stage : task.stage = .approved v node)
    (h : task.onSaved v node (c.save v job.workload job.batch job.fetchTime).1 =
      .finished (some outcome)) : task.Ends job outcome none := by
  unfold Heard at heard
  rw [stage] at heard
  obtain ⟨⟨found, identified⟩, accepted, named⟩ := heard
  rw [Cache.save, named] at h
  dsimp only at h
  split at h
  · cases h
    exact .repeated identified accepted named
  · cases h
    exact .saved identified accepted named

/-- The last step of a verification emits its report, if there is one. -/
theorem Transition.ends (heard : task.Heard job)
    (transition : Transition job timer task c (.finished (some outcome)) next) :
    ∃ report?, task.Ends job outcome report? ∧
      c.Emits (report?.map Event.validationFailed).toList next := by
  have known := heard
  unfold Heard at heard
  generalize hp : Progress.finished (some outcome) = progress at transition
  cases transition with
  | nameless _ unnamed =>
    cases hp
    exact ⟨none, .nameless unnamed, c.emits_record _⟩
  | unidentified _ refused =>
    cases hp
    exact ⟨none, .unidentified refused, c.emits_record _⟩
  | tracked stage =>
    rw [stage] at heard
    exact ⟨none, ends_of_onTracked heard _ hp.symm, Client.emits_of_log_eq rfl⟩
  | @refused since error now stage verdict clock =>
    cases hp
    rw [stage] at heard
    obtain ⟨node, identified⟩ := heard
    exact ⟨_, .invalid identified ⟨_, verdict⟩, Client.emits_record _ _⟩
  | anonymous stage unnamed =>
    cases hp
    rw [stage] at heard
    obtain ⟨⟨node, identified⟩, accepted⟩ := heard
    exact ⟨none, .anonymous identified accepted unnamed, Client.emits_of_log_eq rfl⟩
  | overlong stage _ _ long =>
    cases hp
    rw [stage] at heard
    obtain ⟨⟨node, identified⟩, accepted⟩ := heard
    exact ⟨none, .overlong identified accepted long, Client.emits_of_log_eq rfl⟩
  | saved stage =>
    exact ⟨none, ends_of_onSaved known stage hp.symm, Client.emits_of_log_eq rfl⟩
  | _ => cases hp

end Steps

end Task

/-- The end of a verification with an outcome. -/
structure Ending (job : Assignment) where
  task : Task
  outcome : Outcome
  report? : Option FailureMetric
  ends : task.Ends job outcome report?

namespace Ending

variable {job : Assignment}

def place (e : Ending job) : Nat := e.task.place

def events (e : Ending job) : List Event := (e.report?.map Event.validationFailed).toList

end Ending

end NodeAttestation
