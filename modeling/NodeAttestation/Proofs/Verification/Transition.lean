import NodeAttestation.Verification.Task

/-! # All that a step of a verification can come to. -/

namespace NodeAttestation.Task

def identity (job : Assignment) (task : Task) : Ruling (Option String) :=
  job.verifier.identify (task.id job) task.attestation job.workload

/-- The steps of a task that the clock and the cache of a client allow, each with the client it
leaves. -/
inductive Transition (job : Assignment) (timer : Nat) (task : Task) (c : Client) :
    Progress → Client → Prop
  | identified {node : String} (stage : task.stage = .submitted)
      (verdict : (task.identity job).verdict = .accepted (some node)) :
      Transition job timer task c (.going (.identified node))
        ((c.record (.identifying (task.id job))).pass (task.identity job).takes)
  | nameless (stage : task.stage = .submitted)
      (verdict : (task.identity job).verdict = .accepted none) :
      Transition job timer task c (task.ends .noIdentifier false none)
        ((c.record (.identifying (task.id job))).pass (task.identity job).takes)
  | unidentified {error : VerificationError} (stage : task.stage = .submitted)
      (verdict : (task.identity job).verdict = .refused error) :
      Transition job timer task c (task.ends (.invalid error) false none)
        ((c.record (.identifying (task.id job))).pass (task.identity job).takes)
  | lost (stage : task.stage = .submitted) (verdict : (task.identity job).verdict = .crashed) :
      Transition job timer task c (.finished none)
        ((c.record (.identifying (task.id job))).pass (task.identity job).takes)
  | untimed {node : String} (stage : task.stage = .identified node) (clock : c.now? = none) :
      Transition job timer task c (.finished none) c
  | known {node : String} {now : Instant} (stage : task.stage = .identified node)
      (clock : c.now? = some now) (live : c.cache.isLive now node = true) :
      Transition job timer task c (.going (.known node)) c
  | unknown {node : String} {now : Instant} (stage : task.stage = .identified node)
      (clock : c.now? = some now) (dead : c.cache.isLive now node = false) :
      Transition job timer task c (.going .unknown) c
  | tracked {node : String} (stage : task.stage = .known node) :
      Transition job timer task c
        (task.onTracked node (c.cache.track job.workload node job.batch job.fetchTime).1)
        { c with cache := (c.cache.track job.workload node job.batch job.fetchTime).2 }
  | begun (stage : task.stage = .unknown) (waits : (task.validation job).waits = none) :
      Transition job timer task c (.going (.validating c.uptime))
        (c.record (.validating (task.id job)))
  | slept {millis : Nat} (stage : task.stage = .unknown)
      (waits : (task.validation job).waits = some millis) :
      Transition job timer task c (.going (.asleep c.uptime (timer + min millis longestSleep)))
        (c.record (.validating (task.id job)))
  | woken {since wake : Nat} (stage : task.stage = .asleep since wake) :
      Transition job timer task c (.going (.validating since)) c
  | accepted {since : Nat} {v : Validated} (stage : task.stage = .validating since)
      (verdict : ((task.validation job).rule c.now?).verdict = .accepted v) :
      Transition job timer task c (.going (.validated v))
        (c.pass ((task.validation job).rule c.now?).takes)
  | refused {since : Nat} {error : VerificationError} {now : Instant}
      (stage : task.stage = .validating since)
      (verdict : ((task.validation job).rule c.now?).verdict = .refused error)
      (clock : (c.pass ((task.validation job).rule c.now?).takes).now? = some now) :
      Transition job timer task c (task.ends (.invalid error) false none)
        ((c.pass ((task.validation job).rule c.now?).takes).emit (.validationFailed
          (task.failure job since error now
            (c.pass ((task.validation job).rule c.now?).takes))))
  | unreported {since : Nat} {error : VerificationError} (stage : task.stage = .validating since)
      (verdict : ((task.validation job).rule c.now?).verdict = .refused error)
      (clock : (c.pass ((task.validation job).rule c.now?).takes).now? = none) :
      Transition job timer task c (.finished none)
        (c.pass ((task.validation job).rule c.now?).takes)
  | crashed {since : Nat} (stage : task.stage = .validating since)
      (verdict : ((task.validation job).rule c.now?).verdict = .crashed) :
      Transition job timer task c (.finished none)
        (c.pass ((task.validation job).rule c.now?).takes)
  | anonymous {v : Validated} (stage : task.stage = .validated v) (node : v.node = none) :
      Transition job timer task c (task.ends .noIdentifier false none) c
  | undated {v : Validated} {node : String} (stage : task.stage = .validated v)
      (node : v.node = some node) (clock : c.now? = none) :
      Transition job timer task c (.finished none) c
  | overlong {v : Validated} {node : String} {now : Instant} (stage : task.stage = .validated v)
      (node : v.node = some node) (clock : c.now? = some now) (long : tooLong v now = true) :
      Transition job timer task c (task.ends .expiryTooLarge false none) c
  | approved {v : Validated} {node : String} {now : Instant} (stage : task.stage = .validated v)
      (identified : v.node = some node) (clock : c.now? = some now)
      (short : tooLong v now = false) :
      Transition job timer task c (.going (.approved v node)) c
  | saved {v : Validated} {node : String} (stage : task.stage = .approved v node) :
      Transition job timer task c
        (task.onSaved v node (c.cache.save v job.workload job.batch job.fetchTime).1)
        { c with cache := (c.cache.save v job.workload job.batch job.fetchTime).2 }

section Transitions

variable (job : Assignment) (timer : Nat) (task : Task) (c : Client)

theorem identify_transition (stage : task.stage = .submitted) :
    Transition job timer task c (task.identify job c).1 (task.identify job c).2 := by
  have hidentity : job.verifier.identify (task.id job) task.attestation job.workload =
      task.identity job := rfl
  rw [identify, hidentity]
  cases verdict : (task.identity job).verdict with
  | accepted found =>
    cases found with
    | none => exact .nameless stage verdict
    | some node => exact .identified stage verdict
  | refused error => exact .unidentified stage verdict
  | crashed => exact .lost stage verdict

theorem lookUp_transition {node : String} (stage : task.stage = .identified node) :
    Transition job timer task c (lookUp node c).1 (lookUp node c).2 := by
  rw [lookUp]
  cases clock : c.now? with
  | none => exact .untimed stage clock
  | some now =>
    dsimp only
    split
    · rename_i live
      exact .known stage clock live
    · rename_i dead
      exact .unknown stage clock (Bool.eq_false_iff.2 dead)

theorem beginValidation_transition (stage : task.stage = .unknown) :
    Transition job timer task c (task.beginValidation job timer c).1
      (task.beginValidation job timer c).2 := by
  rw [beginValidation]
  cases waits : (task.validation job).waits with
  | none => exact .begun stage waits
  | some millis => exact .slept stage waits

theorem validate_transition {since : Nat} (stage : task.stage = .validating since) :
    Transition job timer task c (task.validate job since c).1 (task.validate job since c).2 := by
  rw [validate]
  cases verdict : ((task.validation job).rule c.now?).verdict with
  | accepted v => exact .accepted stage verdict
  | refused error =>
    dsimp only [onVerdict]
    cases clock : (c.pass ((task.validation job).rule c.now?).takes).now? with
    | none => exact .unreported stage verdict clock
    | some now => exact .refused stage verdict clock
  | crashed => exact .crashed stage verdict

theorem approve_transition {v : Validated} (stage : task.stage = .validated v) :
    Transition job timer task c (task.approve v c.now?) c := by
  rw [approve]
  cases identified : v.node with
  | none => exact .anonymous stage identified
  | some node =>
    cases clock : c.now? with
    | none => exact .undated stage identified clock
    | some now =>
      dsimp only
      split
      · rename_i long
        exact .overlong stage identified clock long
      · rename_i short
        exact .approved stage identified clock (Bool.eq_false_iff.2 short)

theorem step_transition :
    Transition job timer task c (task.step job timer c).1 (task.step job timer c).2 := by
  rw [step]
  cases stage : task.stage with
  | submitted => exact identify_transition job timer task c stage
  | identified node => exact lookUp_transition job timer task c stage
  | known node => exact .tracked stage
  | unknown => exact beginValidation_transition job timer task c stage
  | asleep since wake => exact .woken stage
  | validating since => exact validate_transition job timer task c stage
  | validated v => exact approve_transition job timer task c stage
  | approved v node => exact .saved stage

theorem transition_of_step {job : Assignment} {timer : Nat} {task : Task} {c next : Client}
    {progress : Progress} (step : task.step job timer c = (progress, next)) :
    Transition job timer task c progress next := by
  have transition := step_transition job timer task c
  rwa [step] at transition

end Transitions

section Writing

variable {job : Assignment} {timer : Nat} {task : Task} {c next : Client}

/-- What a step at a stage does to the cache: only tracking and saving write to it. -/
def Stage.write (job : Assignment) (c : Cache) : Stage → Cache
  | .known node => (c.track job.workload node job.batch job.fetchTime).2
  | .approved v _ => (c.save v job.workload job.batch job.fetchTime).2
  | _ => c

theorem Transition.cache_eq {progress : Progress}
    (transition : Transition job timer task c progress next) :
    next.cache = task.stage.write job c.cache := by
  cases transition with
  | identified stage | nameless stage | unidentified stage | lost stage | untimed stage
  | known stage | unknown stage | tracked stage | begun stage | slept stage | woken stage
  | accepted stage | refused stage | unreported stage | crashed stage | anonymous stage
  | undated stage | overlong stage | approved stage | saved stage => rw [stage]; rfl

/-- Only the last step of a task writes to the cache. -/
theorem Transition.cache_eq_of_going {stage : Stage}
    (transition : Transition job timer task c (.going stage) next) : next.cache = c.cache := by
  generalize hp : Progress.going stage = progress at transition
  cases transition with
  | tracked => exact absurd hp.symm (onTracked_ne_going _ _ _ _)
  | saved => exact absurd hp.symm (onSaved_ne_going _ _ _ _ _)
  | _ => rfl

/-- A node is only taken for known while its record is live. -/
theorem Transition.known_cases {node : String}
    (transition : Transition job timer task c (.going (.known node)) next) :
    next = c ∧ ∃ now, c.now? = some now ∧ c.cache.isLive now node = true := by
  generalize hp : Progress.going (.known node) = progress at transition
  cases transition with
  | known _ clock live =>
    cases hp
    exact ⟨rfl, _, clock, live⟩
  | tracked => exact absurd hp.symm (onTracked_ne_going _ _ _ _)
  | saved => exact absurd hp.symm (onSaved_ne_going _ _ _ _ _)
  | _ => cases hp

/-- What is approved has been validated and is not valid for too long. -/
theorem Transition.approved_cases {v : Validated} {node : String}
    (transition : Transition job timer task c (.going (.approved v node)) next) :
    ∃ now, c.now? = some now ∧ tooLong v now = false := by
  generalize hp : Progress.going (.approved v node) = progress at transition
  cases transition with
  | approved _ _ clock short =>
    cases hp
    exact ⟨_, clock, short⟩
  | tracked => exact absurd hp.symm (onTracked_ne_going _ _ _ _)
  | saved => exact absurd hp.symm (onSaved_ne_going _ _ _ _ _)
  | _ => cases hp

end Writing

section Elapsing

variable {job : Assignment} {timer : Nat} {task : Task} {c next : Client}

theorem clock_le_pass (c : Client) (nanos : Nat) : c.clock.nanos ≤ (c.pass nanos).clock.nanos := by
  dsimp only [Client.pass, Clock.pass]
  omega

theorem Transition.clock_le {progress : Progress}
    (transition : Transition job timer task c progress next) :
    c.clock.nanos ≤ next.clock.nanos := by
  cases transition with
  | identified | nameless | unidentified | lost | accepted | refused | unreported | crashed =>
    exact clock_le_pass ..
  | _ => exact Int.le_refl _

end Elapsing

end NodeAttestation.Task
