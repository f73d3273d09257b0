import NodeAttestation.Proofs.Batch.Run
import NodeAttestation.Proofs.Cache.Records
import NodeAttestation.Proofs.Verification.Transition

/-!
# A verification by itself

What an outcome promises when nothing else has acted on the client meanwhile. A node that is
reported as saved is tracked for the batch. If the cache knew it, its record is live. If it has
been validated, nothing has asked whether its validity is over already, so that its record is live
only if it is not.
-/

namespace NodeAttestation.Task

/-- Lets a task go on by itself to its end. A step of a task that sleeps lets the timer run on. -/
def finish (job : Assignment) : (budget timer : Nat) → (task : Task) → Client →
    task.stage.work < budget → Option Outcome × Client
  | 0, _, _, _, h => absurd h (Nat.not_lt_zero _)
  | budget + 1, timer, task, c, h =>
    match hstep : task.step job (max timer task.wakes) c with
    | (.finished outcome, next) => (outcome, next)
    | (.going stage, next) =>
      finish job budget (max timer task.wakes) { task with stage := stage } next
        (Nat.lt_of_lt_of_le (work_step_lt (congrArg Prod.fst hstep)) (Nat.le_of_lt_succ h))

/-- Verifies an attestation while nothing else acts on the client. -/
def verify (job : Assignment) (place timer : Nat) (a : Attestation) (c : Client) :
    Option Outcome × Client :=
  finish job 8 timer ⟨place, a, .submitted⟩ c (Nat.lt_succ_self 7)

/-- What a task has found out and can rely on as long as nothing else acts on the client. -/
def Assured (task : Task) (c : Client) : Prop :=
  match task.stage with
  | .known node => ∃ now, c.now? = some now ∧ c.cache.isLive now node = true
  | .approved v node => v.node = some node ∧ ∃ now, c.now? = some now
  | _ => True

section Steps

variable {job : Assignment} {timer : Nat} {task : Task} {c next : Client}

theorem Transition.assured {stage : Stage}
    (transition : Transition job timer task c (.going stage) next) :
    Assured { task with stage := stage } next := by
  generalize hp : Progress.going stage = progress at transition
  cases transition with
  | known _ clock live =>
    cases hp
    exact ⟨_, clock, live⟩
  | approved _ identified clock =>
    cases hp
    exact ⟨identified, _, clock⟩
  | tracked => exact absurd hp.symm (onTracked_ne_going _ _ _ _)
  | saved => exact absurd hp.symm (onSaved_ne_going _ _ _ _ _)
  | identified | unknown | begun | slept | woken | accepted =>
    cases hp
    exact trivial
  | _ => cases hp

/-- What holds when a verification begins, and is kept by the steps on its way, holds before its
last step. -/
theorem exists_last_step_of_kept {I : Task → Client → Prop}
    (kept : ∀ timer task c stage next, I task c →
      Transition job timer task c (.going stage) next → I { task with stage := stage } next)
    {budget : Nat} {outcome : Option Outcome} {h : task.stage.work < budget} (start : I task c)
    (done : finish job budget timer task c h = (outcome, next)) :
    ∃ (last : Task) (before : Client) (timer : Nat), I last before ∧
      last.step job timer before = (.finished outcome, next) := by
  induction budget generalizing timer task c with
  | zero => exact absurd h (Nat.not_lt_zero _)
  | succ budget ih =>
    rw [finish] at done
    split at done
    · rename_i last after hstep
      cases done
      exact ⟨task, c, _, start, hstep⟩
    · rename_i stage after hstep
      exact ih (kept _ _ _ _ _ start (transition_of_step hstep)) done

/-- Every verification ends with a step from what it could rely on. -/
theorem exists_last_step {budget : Nat} {outcome : Option Outcome}
    {h : task.stage.work < budget} (assured : Assured task c)
    (done : finish job budget timer task c h = (outcome, next)) :
    ∃ (last : Task) (before : Client) (timer : Nat), Assured last before ∧
      last.step job timer before = (.finished outcome, next) := by
  refine exists_last_step_of_kept ?_ assured done
  intro timer task c stage next _ transition
  exact transition.assured

end Steps

/-- A node that is reported as saved is tracked, and it is live unless it has been validated and its
validity is over. -/
theorem Transition.saved_cases {job : Assignment} {timer : Nat} {task : Task} {c next : Client}
    {o : Outcome} {node : String}
    (transition : Transition job timer task c (.finished (some o)) next)
    (assured : Assured task c) (saved : o.saved = true) (named : o.identifier = some node) :
    ∃ now, next.now? = some now ∧
      (next.cache.tracked job.workload job.batch).contains node = true ∧
      (next.cache.isLive now node = true ↔
        ∀ key expiry, o.finding = .valid key expiry → now < expiry) := by
  generalize hp : Progress.finished (some o) = progress at transition
  cases transition with
  | @tracked known stage =>
    rw [Assured, stage] at assured
    obtain ⟨now, clock, live⟩ := assured
    rw [Cache.track_fst, onTracked] at hp
    split at hp
    · cases hp
      cases saved
    · cases hp
      cases named
      refine ⟨now, clock, (Cache.contains_tracked_track ..).2 (.inl rfl), iff_of_true ?_ ?_⟩
      · rwa [Cache.isLive_congr (congrArg (·.find? node) (Cache.records_track ..))]
      · intro key expiry hvalid
        cases hvalid
  | @saved v approved stage =>
    rw [Assured, stage] at assured
    obtain ⟨identified, now, clock⟩ := assured
    cases houtcome : (c.cache.save v job.workload job.batch job.fetchTime).1 with
    | saved =>
      rw [houtcome] at hp
      cases hp
      cases named
      refine ⟨now, clock, (Cache.contains_tracked_save _ _ _ _ identified _).2 (.inl rfl), ?_⟩
      have hrecord := Cache.find?_records_save_self _ _ _ job.fetchTime identified
        (Cache.save_eq_saved _ _ _ _ identified houtcome)
      rw [Cache.isLive_iff, hrecord]
      constructor
      · rintro ⟨record, hfound, hlive⟩ key expiry hvalid
        cases hfound
        cases hvalid
        exact hlive
      · intro hlive
        exact ⟨_, rfl, hlive _ _ rfl⟩
    | alreadyTracked =>
      rw [houtcome] at hp
      cases hp
      cases saved
    | rejected =>
      rw [houtcome] at hp
      cases hp
      cases saved
  | nameless | unidentified | refused | anonymous | overlong =>
    cases hp
    cases saved
  | _ => cases hp

/-- Right after a verification that reports its node as saved, the batch tracks the node, and it
counts as fresh for the workload if and only if its record is live: that is, unless it has been
validated with a validity that is over already. -/
theorem isLive_iff_of_saved {job : Assignment} {place timer : Nat} {a : Attestation}
    {c next : Client} {o : Outcome} {node : String}
    (verified : verify job place timer a c = (some o, next)) (saved : o.saved = true)
    (named : o.identifier = some node) :
    ∃ now entry, next.now? = some now ∧
      next.cache.batch? job.workload job.batch = some entry ∧ entry.nodes.contains node = true ∧
      (next.cache.isLive now node = true ↔
        ∀ key expiry, o.finding = .valid key expiry → now < expiry) ∧
      ∀ since ≤ entry.fetchTime,
        ((next.cache.freshNodes now since job.workload).contains node = true ↔
          next.cache.isLive now node = true) := by
  have unassured : Assured ⟨place, a, .submitted⟩ c := trivial
  obtain ⟨last, before, timer, assured, hstep⟩ := exists_last_step unassured verified
  obtain ⟨now, clock, tracked, live⟩ := (transition_of_step hstep).saved_cases assured saved named
  obtain ⟨entry, hentry, hnode⟩ := (Cache.contains_tracked_iff ..).1 tracked
  refine ⟨now, entry, clock, hentry, hnode, live, fun since hsince => ?_⟩
  rw [Cache.contains_freshNodes_iff]
  exact ⟨fun fresh => fresh.1, fun live => ⟨live, job.batch, entry, hentry, hsince, hnode⟩⟩

section Expired

/-- The validity of one node ends when it is validated. -/
def expiringJob : Assignment :=
  { Batch.sampleJob with
    verifier := VerifierLists.verifier ⟨[], [], [], [], .ofList [("n", 0)], none⟩ }

def sampleNode (node : String) : Attestation := ⟨node, [], "1.0", "release", none, none⟩

def expiredOutcome : Outcome :=
  ⟨"n", "1.0", "release", .valid (Bytes.ofText "n") .epoch, true, some "uid-n"⟩

theorem isLive_iff_of_saved_for_an_hour :
    (verify Batch.sampleJob 0 0 (sampleNode "n") Batch.sampleClient).1 =
        some (Batch.sampleOutcome "n") ∧
      (verify Batch.sampleJob 0 0 (sampleNode "n") Batch.sampleClient).2.cache.isLive .epoch
        "uid-n" = true := by
  have verified : verify Batch.sampleJob 0 0 (sampleNode "n") Batch.sampleClient =
      (some (Batch.sampleOutcome "n"),
        (verify Batch.sampleJob 0 0 (sampleNode "n") Batch.sampleClient).2) := by rfl
  obtain ⟨now, entry, clock, -, -, live, -⟩ := isLive_iff_of_saved verified rfl rfl
  have hepoch : now = .epoch := Option.some.inj (clock.symm.trans (by rfl))
  subst hepoch
  refine ⟨congrArg Prod.fst verified, live.2 fun key expiry valid => ?_⟩
  cases valid
  decide

/-- A node that is saved at the very end of its validity is tracked and of no use. -/
theorem not_isLive_of_expired :
    (verify expiringJob 0 0 (sampleNode "n") Batch.sampleClient).1 = some expiredOutcome ∧
      expiredOutcome.saved = true ∧
      ((verify expiringJob 0 0 (sampleNode "n") Batch.sampleClient).2.cache.isLive .epoch
        "uid-n") = false := by
  exact ⟨by rfl, rfl, by rfl⟩

end Expired

end NodeAttestation.Task
