import NodeAttestation.Proofs.Cache.Locality
import NodeAttestation.Verification.Task

/-! # What a step of a verification can do to the cache, and what comes of it. -/

namespace NodeAttestation

/-- What a batch counts of an attestation and of the outcome it leads to. -/
structure Label where
  node : String
  osVersion : String
  releaseType : String
deriving DecidableEq

def Attestation.label (a : Attestation) : Label := ⟨a.node, a.osVersion, a.releaseType⟩

def Outcome.label (o : Outcome) : Label := ⟨o.node, o.osVersion, o.releaseType⟩

namespace Task

/-- An approved attestation is one of the node under which it is going to be saved. -/
def Stage.IsSound : Stage → Prop
  | .approved v node => v.node = some node
  | _ => True

/-- The progress that a step can make on a cache, and the cache it leaves. -/
inductive Effect (job : Assignment) (task : Task) (c : Cache) : Progress → Cache → Prop
  | going {stage : Stage} (sound : stage.IsSound) : Effect job task c (.going stage) c
  | lost : Effect job task c (.finished none) c
  | unsaved (finding : Finding) : Effect job task c (task.ends finding false none) c
  | duplicate {node : String} (held : (c.tracked job.workload job.batch).contains node = true) :
      Effect job task c (task.ends .alreadyInBatch false (some node)) c
  | tracked {node : String} (new : (c.tracked job.workload job.batch).contains node = false) :
      Effect job task c (task.ends .validationNotNeeded true (some node))
        (c.addNode job.workload job.batch job.fetchTime node)
  | stored {v : Validated} {node : String} (identified : v.node = some node)
      (new : (c.tracked job.workload job.batch).contains node = false) :
      Effect job task c (task.ends (.valid v.publicKey v.expiry) true (some node))
        { c.addNode job.workload job.batch job.fetchTime node with
          records :=
            (c.addNode job.workload job.batch job.fetchTime node).records.insert node
              (Cache.recordOf v) }

section Steps

variable (job : Assignment) (task : Task) (c : Client)

theorem identify_effect :
    Effect job task c.cache (task.identify job c).1 (task.identify job c).2.cache := by
  rw [identify]
  dsimp only
  cases (job.verifier.identify (task.id job) task.attestation job.workload).verdict with
  | accepted found =>
    cases found with
    | none => exact .unsaved .noIdentifier
    | some node => exact .going trivial
  | refused error => exact .unsaved (.invalid error)
  | crashed => exact .lost

theorem lookUp_effect (node : String) :
    Effect job task c.cache (lookUp node c).1 (lookUp node c).2.cache := by
  rw [lookUp]
  cases c.now? with
  | none => exact .lost
  | some now =>
    refine .going ?_
    split <;> exact trivial

theorem track_effect (node : String) :
    Effect job task c.cache (task.track job node c).1 (task.track job node c).2.cache := by
  rw [track, Cache.track]
  cases h : (c.cache.tracked job.workload job.batch).contains node with
  | true => exact .duplicate h
  | false => exact .tracked h

theorem beginValidation_effect (timer : Nat) :
    Effect job task c.cache (task.beginValidation job timer c).1
      (task.beginValidation job timer c).2.cache := by
  refine .going ?_
  cases (task.validation job).waits <;> exact trivial

theorem validate_effect (since : Nat) :
    Effect job task c.cache (task.validate job since c).1 (task.validate job since c).2.cache := by
  rw [validate]
  cases ((task.validation job).rule c.now?).verdict with
  | accepted v => exact .going trivial
  | refused error =>
    rw [onVerdict]
    cases (c.pass ((task.validation job).rule c.now?).takes).now? with
    | none => exact .lost
    | some now => exact .unsaved (.invalid error)
  | crashed => exact .lost

theorem approve_effect (cache : Cache) (v : Validated) (now? : Option Instant) :
    Effect job task cache (task.approve v now?) cache := by
  rw [approve]
  cases hnode : v.node with
  | none => exact .unsaved .noIdentifier
  | some node =>
    cases now? with
    | none => exact .lost
    | some now =>
      dsimp only
      split
      · exact .unsaved .expiryTooLarge
      · exact .going hnode

theorem save_effect {v : Validated} {node : String} (sound : v.node = some node) :
    Effect job task c.cache (task.save job v node c).1 (task.save job v node c).2.cache := by
  rw [save, Cache.save, sound]
  cases h : (c.cache.tracked job.workload job.batch).contains node with
  | true =>
    simp only [if_true, h]
    exact .duplicate h
  | false =>
    simp only [h]
    exact .stored sound h

theorem step_effect (timer : Nat) (sound : task.stage.IsSound) :
    Effect job task c.cache (task.step job timer c).1 (task.step job timer c).2.cache := by
  rw [step]
  cases hstage : task.stage with
  | submitted => exact identify_effect job task c
  | identified node => exact lookUp_effect job task c node
  | known node => exact track_effect job task c node
  | unknown => exact beginValidation_effect job task c timer
  | asleep since wake => exact .going trivial
  | validating since => exact validate_effect job task c since
  | validated v => exact approve_effect job task c.cache v c.now?
  | approved v node =>
    rw [hstage] at sound
    exact save_effect job task c sound

theorem effect_of_step {timer : Nat} {progress : Progress} {next : Client}
    (sound : task.stage.IsSound) (step : task.step job timer c = (progress, next)) :
    Effect job task c.cache progress next.cache := by
  have effect := step_effect job task c timer sound
  rwa [step] at effect

end Steps

namespace Effect

variable {job : Assignment} {task : Task} {c next : Cache}

theorem going_cases {stage : Stage} (h : Effect job task c (.going stage) next) :
    next = c ∧ stage.IsSound := by
  cases h with
  | going sound => exact ⟨rfl, sound⟩

theorem label_of_finished {outcome : Outcome}
    (h : Effect job task c (.finished (some outcome)) next) :
    outcome.label = task.attestation.label := by
  generalize hp : Progress.finished (some outcome) = progress at h
  cases h <;> cases hp <;> rfl

/-- A task finishes either without saving its node, which the batch then tracks already if it is
known at all, or by making it a node of the batch. Its record is a new one if it has been
validated. -/
theorem finished_cases {outcome : Option Outcome}
    (effect : Effect job task c (.finished outcome) next) :
    (next = c ∧ ∀ o, outcome = some o → o.saved = false ∧ ∀ node, o.identifier = some node →
        (c.tracked job.workload job.batch).contains node = true) ∨
      ∃ o node, outcome = some o ∧ o.saved = true ∧ o.identifier = some node ∧
        Cache.Gains job.workload job.batch job.fetchTime node c next ∧
        (o.finding = .validationNotNeeded ∧ next.records = c.records ∨
          ∃ v, o.finding = .valid v.publicKey v.expiry ∧
            next.records.find? node = some (Cache.recordOf v)) := by
  generalize hp : Progress.finished outcome = progress at effect
  cases effect with
  | going => cases hp
  | lost =>
    cases hp
    exact .inl ⟨rfl, fun o ho => nomatch ho⟩
  | unsaved finding =>
    cases hp
    refine .inl ⟨rfl, fun o ho => ?_⟩
    cases ho
    exact ⟨rfl, fun node hnode => nomatch hnode⟩
  | @duplicate node held =>
    cases hp
    refine .inl ⟨rfl, fun o ho => ?_⟩
    cases ho
    refine ⟨rfl, fun other hother => ?_⟩
    cases hother
    exact held
  | @tracked node new =>
    cases hp
    exact .inr ⟨_, node, rfl, rfl, rfl, Cache.gains_addNode new, .inl ⟨rfl, rfl⟩⟩
  | @stored v node _ new =>
    cases hp
    exact .inr ⟨_, node, rfl, rfl, rfl, (Cache.gains_addNode new).insert _,
      .inr ⟨v, rfl, SortedMap.find?_insert_self ..⟩⟩

end Effect

end Task

end NodeAttestation
