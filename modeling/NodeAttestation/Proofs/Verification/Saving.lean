import NodeAttestation.Proofs.Verification.Alone
import NodeAttestation.Proofs.Verification.Effect
import NodeAttestation.Proofs.Verification.Ending

/-!
# What a verification saves

A verification by itself changes the cache if and only if its outcome says so. What it changes is
the node of the outcome: the batch comes to track it, and its record may become another.
-/

namespace NodeAttestation

namespace Task

variable {job : Assignment} {timer : Nat} {task : Task} {c next : Client} {o : Outcome}
  {report? : Option FailureMetric}

section Findings

theorem Ends.saved_iff (ends : task.Ends job o report?) :
    o.saved = true ↔ (∃ key expiry, o.finding = .valid key expiry) ∨
      o.finding = .validationNotNeeded := by
  cases ends with
  | tracked => exact iff_of_true rfl (.inr rfl)
  | saved => exact iff_of_true rfl (.inl ⟨_, _, rfl⟩)
  | _ =>
    refine iff_of_false Bool.false_ne_true ?_
    rintro (⟨_, _, hfinding⟩ | hfinding) <;> cases hfinding

theorem Ends.isSome_identifier_iff (ends : task.Ends job o report?) :
    o.identifier.isSome = true ↔ (∃ key expiry, o.finding = .valid key expiry) ∨
      o.finding = .validationNotNeeded ∨ o.finding = .alreadyInBatch := by
  cases ends with
  | duplicate | repeated => exact iff_of_true rfl (.inr (.inr rfl))
  | tracked => exact iff_of_true rfl (.inr (.inl rfl))
  | saved => exact iff_of_true rfl (.inl ⟨_, _, rfl⟩)
  | _ =>
    refine iff_of_false Bool.false_ne_true ?_
    rintro (⟨_, _, hfinding⟩ | hfinding | hfinding) <;> cases hfinding

end Findings

section Course

/-- A verification on its way has not written to the cache, and is in line with the verifier. -/
structure Unwritten (job : Assignment) (first : Cache) (task : Task) (c : Client) : Prop where
  cache : c.cache = first
  sound : task.stage.IsSound
  heard : task.Heard job

theorem Unwritten.going {first : Cache} {stage : Stage} (unwritten : Unwritten job first task c)
    (transition : Transition job timer task c (.going stage) next) :
    Unwritten job first { task with stage := stage } next where
  cache := transition.cache_eq_of_going.trans unwritten.cache
  sound := by
    have heard := transition.heard unwritten.heard
    cases stage with
    | approved v node => exact heard.2.2
    | _ => exact trivial
  heard := transition.heard unwritten.heard

theorem exists_last_transition {place : Nat} {a : Attestation} {outcome : Option Outcome}
    (verified : verify job place timer a c = (outcome, next)) :
    ∃ (last : Task) (before : Client) (timer : Nat), Unwritten job c.cache last before ∧
      Transition job timer last before (.finished outcome) next ∧
      Effect job last c.cache (.finished outcome) next.cache := by
  have start : Unwritten job c.cache ⟨place, a, .submitted⟩ c :=
    ⟨rfl, trivial, heard_of_submitted rfl⟩
  obtain ⟨last, before, timer, unwritten, hstep⟩ :=
    exists_last_step_of_kept (fun _ _ _ _ _ => Unwritten.going) start verified
  have effect := effect_of_step job last before unwritten.sound hstep
  rw [unwritten.cache] at effect
  exact ⟨last, before, timer, unwritten, transition_of_step hstep, effect⟩

end Course

/-- A verification changes the cache if and only if it reports its node as saved. It does so of a
node that is valid or needs no validation, and names a node then and if the batch tracks it already.
The batch comes to track the node that is named and no other; no other batch changes, and no record
but that of the node, which is the new one if the node is valid and stays as it is if it needs no
validation. -/
theorem cache_ne_iff_saved (job : Assignment) (place timer : Nat) (a : Attestation) (c : Client) :
    ((verify job place timer a c).2.cache ≠ c.cache ↔
        ∃ o, (verify job place timer a c).1 = some o ∧ o.saved = true) ∧
      ∀ o, (verify job place timer a c).1 = some o →
        (o.saved = true ↔ (∃ key expiry, o.finding = .valid key expiry) ∨
          o.finding = .validationNotNeeded) ∧
        (o.identifier.isSome = true ↔ (∃ key expiry, o.finding = .valid key expiry) ∨
          o.finding = .validationNotNeeded ∨ o.finding = .alreadyInBatch) ∧
        (o.saved = true → ∃ node, o.identifier = some node ∧
          Cache.Gains job.workload job.batch job.fetchTime node c.cache
            (verify job place timer a c).2.cache ∧
          (o.finding = .validationNotNeeded ∧
              (verify job place timer a c).2.cache.records = c.cache.records ∨
            ∃ v, o.finding = .valid v.publicKey v.expiry ∧
              (verify job place timer a c).2.cache.records.find? node =
                some (Cache.recordOf v))) := by
  generalize verified : verify job place timer a c = result
  obtain ⟨outcome, next⟩ := result
  obtain ⟨last, before, final, unwritten, transition, effect⟩ := exists_last_transition verified
  refine ⟨?_, ?_⟩
  · rcases effect.finished_cases with ⟨same, unsaved⟩ | ⟨o, node, houtcome, saved, -, gains, -⟩
    · refine iff_of_false (fun changed => changed same) ?_
      rintro ⟨o, houtcome, saved⟩
      exact Bool.false_ne_true ((unsaved o houtcome).1.symm.trans saved)
    · exact iff_of_true gains.ne ⟨o, houtcome, saved⟩
  · rintro o rfl
    obtain ⟨report?, ends, -⟩ := transition.ends unwritten.heard
    refine ⟨ends.saved_iff, ends.isSome_identifier_iff, fun saved => ?_⟩
    rcases effect.finished_cases with ⟨-, unsaved⟩ | ⟨other, node, hother, -, named, gains, record⟩
    · exact absurd ((unsaved o rfl).1.symm.trans saved) Bool.false_ne_true
    · cases hother
      exact ⟨node, named, gains, record⟩

section Disputed

/-- A verifier that identifies every node as one and validates it as another. -/
def disputedJob : Assignment :=
  { Batch.sampleJob with
    verifier := .scripted fun _ => {
      identifying := 0
      crashesIdentifying := false
      identityError := none
      node := some "uid-a"
      waits := some 20
      validating := 0
      crashesValidating := false
      error := none
      validatedNode := some "uid-b"
      publicKey := [1]
      cell := none
      expiry := .within (Span.hours 48) } }

def disputedClient : Client := (verify disputedJob 0 0 (sampleNode "n") Batch.sampleClient).2

/-- The node is saved as which it has been validated. It is not known as the other, so that it is
validated once more, which leaves the cache as it is. -/
theorem cache_ne_iff_saved_of_disputed :
    Cache.Gains disputedJob.workload 0 .epoch "uid-b" .empty disputedClient.cache ∧
      (verify disputedJob 1 0 (sampleNode "n") disputedClient).1 =
        some ((sampleNode "n").outcome .alreadyInBatch false (some "uid-b")) ∧
      (verify disputedJob 1 0 (sampleNode "n") disputedClient).2.cache = disputedClient.cache := by
  obtain ⟨-, first⟩ := cache_ne_iff_saved disputedJob 0 0 (sampleNode "n") Batch.sampleClient
  obtain ⟨-, -, saving⟩ := first ((sampleNode "n").outcome
    (.valid [1] { Instant.epoch with
      second := 172800, earliest_le := by decide, le_latest := by decide })
    true (some "uid-b")) (by rfl)
  obtain ⟨node, named, gains, -⟩ := saving rfl
  cases named
  have again : (verify disputedJob 1 0 (sampleNode "n") disputedClient).1 =
      some ((sampleNode "n").outcome .alreadyInBatch false (some "uid-b")) := by rfl
  obtain ⟨changed, -⟩ := cache_ne_iff_saved disputedJob 1 0 (sampleNode "n") disputedClient
  refine ⟨gains, again, ?_⟩
  refine Decidable.byContradiction fun differs => ?_
  obtain ⟨o, houtcome, saved⟩ := changed.1 differs
  cases again.symm.trans houtcome
  cases saved

end Disputed

end Task

end NodeAttestation
