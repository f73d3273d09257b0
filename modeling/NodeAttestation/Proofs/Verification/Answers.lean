import NodeAttestation.Proofs.Cache.Records
import NodeAttestation.Proofs.Verification.Transition

/-!
# Verifiers that answer by the attestation

The node that such a verifier makes a batch keep on account of an attestation can be told from the
cache that the batch starts from. What each stage of a task knows of its attestation leads to that
node being tracked when the task is finished, whatever other tasks have done to the cache meanwhile.
-/

namespace NodeAttestation

def Verdict.ofExcept {α : Type} : Except VerificationError α → Verdict α
  | .ok value => .accepted value
  | .error error => .refused error

/-- What is said about each attestation. One that is validated under an identifier is identified
so. -/
structure Answers where
  identity : Attestation → Except VerificationError (Option String)
  validation : Attestation → Except VerificationError Validated
  agree : ∀ a v node, validation a = .ok v → v.node = some node → identity a = .ok (some node)

namespace Answers

/-- The verifier of a batch gives these answers whoever asks, and lets no time pass. -/
structure GivenBy (answers : Answers) (job : Assignment) (now : Instant) : Prop where
  identify : ∀ id a,
    job.verifier.identify id a job.workload = ⟨0, .ofExcept (answers.identity a)⟩
  validate : ∀ id a, (job.verifier.validate id a job.workload).rule (some now) =
    ⟨0, .ofExcept (answers.validation a)⟩

/-- The verifier that gives the answers at once. -/
def verifier (answers : Answers) : Verifier where
  identify _ a _ := ⟨0, .ofExcept (answers.identity a)⟩
  validate _ a _ := ⟨none, fun _ => ⟨0, .ofExcept (answers.validation a)⟩⟩

theorem givenBy_verifier (answers : Answers) (job : Assignment) (now : Instant) :
    answers.GivenBy { job with verifier := answers.verifier } now :=
  ⟨fun _ _ => rfl, fun _ _ => rfl⟩

/-- Whether a node is validated by an attestation, and not for too long. -/
def approves (answers : Answers) (now : Instant) (a : Attestation) (node : String) : Bool :=
  match answers.validation a with
  | .ok v => v.node == some node && !Task.tooLong v now
  | .error _ => false

/-- The node that is tracked on account of an attestation, by a batch that starts from a cache. -/
def kept? (answers : Answers) (now : Instant) (c : Cache) (a : Attestation) : Option String :=
  match answers.identity a with
  | .ok (some node) =>
    if c.isLive now node || answers.approves now a node then some node else none
  | _ => none

def kept (answers : Answers) (now : Instant) (c : Cache) (attestations : List Attestation) :
    SortedSet String :=
  .ofList ((attestations.filterMap (answers.kept? now c)).map fun node => (node, ()))

section Kept

variable {answers : Answers} {now : Instant} {c : Cache} {a : Attestation} {node : String}

theorem approves_iff : answers.approves now a node = true ↔
    ∃ v, answers.validation a = .ok v ∧ v.node = some node ∧ Task.tooLong v now = false := by
  rw [approves]
  cases answers.validation a with
  | error e => simp
  | ok v => simp

theorem kept?_eq_some_iff : answers.kept? now c a = some node ↔
    answers.identity a = .ok (some node) ∧
      (c.isLive now node = true ∨ answers.approves now a node = true) := by
  rw [kept?]
  split
  · rename_i other hidentity
    rw [hidentity, Option.ite_none_right_eq_some, Bool.or_eq_true, Option.some.injEq,
      Except.ok.injEq, Option.some.injEq]
    constructor
    · rintro ⟨hkept, rfl⟩
      exact ⟨rfl, hkept⟩
    · rintro ⟨rfl, hkept⟩
      exact ⟨hkept, rfl⟩
  · rename_i hother
    exact iff_of_false (fun h => nomatch h) fun h => hother node h.1

theorem eq_of_identity {other : String} (hidentity : answers.identity a = .ok (some node))
    (kept : answers.kept? now c a = some other) : other = node := by
  cases hidentity.symm.trans (kept?_eq_some_iff.1 kept).1
  rfl

/-- A node without a live record at the start is only kept if its attestation is validated. -/
theorem validated_of_kept?_eq_some (dead : c.isLive now node = false)
    (kept : answers.kept? now c a = some node) :
    ∃ v, answers.validation a = .ok v ∧ v.node = some node ∧ Task.tooLong v now = false := by
  rcases (kept?_eq_some_iff.1 kept).2 with live | approved
  · cases dead.symm.trans live
  · exact approves_iff.1 approved

theorem contains_kept_iff {attestations : List Attestation} :
    (answers.kept now c attestations).contains node = true ↔
      ∃ a ∈ attestations, answers.kept? now c a = some node := by
  have hid : (Prod.fst ∘ fun node : String => (node, ())) = id := rfl
  rw [kept, SortedMap.contains_ofList, List.map_map, hid, List.map_id, List.mem_filterMap]

end Kept

section Verdicts

variable {α : Type} {result : Except VerificationError α}

theorem ofExcept_eq_accepted {value : α} (h : Verdict.ofExcept result = .accepted value) :
    result = .ok value := by
  cases result with
  | ok other =>
    cases h
    rfl
  | error e => cases h

theorem ofExcept_eq_refused {error : VerificationError}
    (h : Verdict.ofExcept result = .refused error) : result = .error error := by
  cases result with
  | ok other => cases h
  | error e =>
    cases h
    rfl

theorem ofExcept_ne_crashed : Verdict.ofExcept result ≠ .crashed := by
  cases result <;> exact fun h => nomatch h

end Verdicts

/-- What a batch that started from a cache and has taken up attestations can have made of it. -/
structure Bounds (answers : Answers) (job : Assignment) (now : Instant) (first : Cache)
    (taken : List Attestation) (c : Cache) : Prop where
  lasting : ∀ node, first.isLive now node = true → c.isLive now node = true
  earned : ∀ node, c.isLive now node = true →
    first.isLive now node = true ∨ ∃ a ∈ taken, answers.kept? now first a = some node
  tracked : ∀ node, (c.tracked job.workload job.batch).contains node = true →
    ∃ a ∈ taken, answers.kept? now first a = some node

/-- What reaching a stage tells about an attestation. -/
def Tells (answers : Answers) (now : Instant) (first : Cache) (taken : List Attestation)
    (a : Attestation) : Task.Stage → Prop
  | .submitted => True
  | .identified node => answers.identity a = .ok (some node)
  | .known node => answers.identity a = .ok (some node) ∧
      ∃ a ∈ taken, answers.kept? now first a = some node
  | .unknown | .asleep _ _ | .validating _ =>
      ∃ node, answers.identity a = .ok (some node) ∧ first.isLive now node = false
  | .validated v => answers.validation a = .ok v ∧
      ∃ node, answers.identity a = .ok (some node) ∧ first.isLive now node = false
  | .approved v node => answers.validation a = .ok v ∧ v.node = some node ∧
      Task.tooLong v now = false ∧ first.isLive now node = false

structure Consistent (answers : Answers) (now : Instant) (first : Cache)
    (taken : List Attestation) (task : Task) : Prop where
  member : task.attestation ∈ taken
  stage : answers.Tells now first taken task.attestation task.stage

section Growth

variable {answers : Answers} {job : Assignment} {now : Instant} {first c : Cache}
  {taken more : List Attestation} {task : Task}

theorem Bounds.mono (bounds : answers.Bounds job now first taken c) (h : taken ⊆ more) :
    answers.Bounds job now first more c where
  lasting := bounds.lasting
  earned node live :=
    (bounds.earned node live).imp id fun ⟨a, ha, hkept⟩ => ⟨a, h ha, hkept⟩
  tracked node held :=
    (bounds.tracked node held).imp fun _ ⟨ha, hkept⟩ => ⟨h ha, hkept⟩

theorem Consistent.mono (consistent : answers.Consistent now first taken task)
    (h : taken ⊆ more) : answers.Consistent now first more task := by
  refine ⟨h consistent.member, ?_⟩
  have hstage := consistent.stage
  cases stage : task.stage with
  | known node =>
    rw [stage] at hstage
    obtain ⟨hidentity, a, ha, hkept⟩ := hstage
    exact ⟨hidentity, a, h ha, hkept⟩
  | _ =>
    rw [stage] at hstage
    exact hstage

end Growth

section Tasks

variable {answers : Answers} {job : Assignment} {now : Instant} {first : Cache}
  {taken : List Attestation} {timer : Nat} {task : Task} {c next : Client}

theorem now?_pass_zero (c : Client) : (c.pass 0).now? = c.now? := by
  have hclock : c.clock.pass 0 = c.clock := congrArg Clock.mk (Int.add_zero c.clock.nanos)
  rw [Client.now?, Client.pass, hclock]
  rfl

theorem GivenBy.identity_eq (given : answers.GivenBy job now) (task : Task) :
    task.identity job = ⟨0, .ofExcept (answers.identity task.attestation)⟩ :=
  given.identify ..

theorem GivenBy.rule_eq (given : answers.GivenBy job now) (task : Task)
    (clock : c.now? = some now) :
    (task.validation job).rule c.now? = ⟨0, .ofExcept (answers.validation task.attestation)⟩ := by
  rw [clock]
  exact given.validate ..

theorem Consistent.going {stage : Task.Stage} (given : answers.GivenBy job now)
    (consistent : Consistent answers now first taken task)
    (bounds : Bounds answers job now first taken c.cache) (clock : c.now? = some now)
    (transition : task.Transition job timer c (.going stage) next) :
    Consistent answers now first taken { task with stage := stage } ∧ next.cache = c.cache ∧
      next.now? = some now := by
  obtain ⟨htaken, htask⟩ := consistent
  generalize hp : Task.Progress.going stage = progress at transition
  cases transition with
  | identified _ verdict =>
    cases hp
    rw [given.identity_eq] at verdict ⊢
    refine ⟨⟨htaken, ofExcept_eq_accepted verdict⟩, rfl, ?_⟩
    exact (now?_pass_zero c).trans clock
  | @known node other hstage clock' live =>
    cases hp
    cases clock.symm.trans clock'
    rw [hstage] at htask
    refine ⟨⟨htaken, htask, ?_⟩, rfl, clock⟩
    rcases bounds.earned node live with hfirst | hearned
    · exact ⟨task.attestation, htaken, kept?_eq_some_iff.2 ⟨htask, .inl hfirst⟩⟩
    · exact hearned
  | @unknown node other hstage clock' dead =>
    cases hp
    cases clock.symm.trans clock'
    rw [hstage] at htask
    refine ⟨⟨htaken, node, htask, ?_⟩, rfl, clock⟩
    rw [Bool.eq_false_iff]
    intro hfirst
    exact Bool.false_ne_true (dead.symm.trans (bounds.lasting node hfirst))
  | begun hstage | slept hstage | woken hstage =>
    cases hp
    rw [hstage] at htask
    exact ⟨⟨htaken, htask⟩, rfl, clock⟩
  | accepted hstage verdict =>
    cases hp
    rw [hstage] at htask
    rw [given.rule_eq task clock] at verdict ⊢
    refine ⟨⟨htaken, ofExcept_eq_accepted verdict, htask⟩, rfl, ?_⟩
    exact (now?_pass_zero c).trans clock
  | @approved v node other hstage identified clock' short =>
    cases hp
    cases clock.symm.trans clock'
    rw [hstage] at htask
    obtain ⟨hvalid, other, hidentity, hdead⟩ := htask
    -- The node that has been looked up is the one that the validation names.
    cases hidentity.symm.trans (answers.agree _ _ _ hvalid identified)
    exact ⟨⟨htaken, hvalid, identified, short, hdead⟩, rfl, clock⟩
  | tracked => exact absurd hp.symm (Task.onTracked_ne_going _ _ _ _)
  | saved => exact absurd hp.symm (Task.onSaved_ne_going _ _ _ _ _)
  | _ => cases hp

/-- The node of an attestation whose task has finished is tracked, if it is one to be kept. -/
structure Finished (answers : Answers) (job : Assignment) (now : Instant) (first : Cache)
    (taken : List Attestation) (task : Task) (c next : Client) : Prop where
  clock : next.now? = some now
  bounds : Bounds answers job now first taken next.cache
  grown : ∀ node, (c.cache.tracked job.workload job.batch).contains node = true →
    (next.cache.tracked job.workload job.batch).contains node = true
  kept : ∀ node, answers.kept? now first task.attestation = some node →
    (next.cache.tracked job.workload job.batch).contains node = true

theorem Finished.of_unkept (bounds : Bounds answers job now first taken c.cache)
    (clock : next.now? = some now)
    (unkept : ∀ node, answers.kept? now first task.attestation ≠ some node)
    (same : next.cache = c.cache := by rfl) :
    Finished answers job now first taken task c next where
  clock := clock
  bounds := same ▸ bounds
  grown _ h := same ▸ h
  kept node h := absurd h (unkept node)

theorem Consistent.track {node : String}
    (consistent : Consistent answers now first taken task)
    (bounds : Bounds answers job now first taken c.cache) (clock : c.now? = some now)
    (stage : task.stage = .known node) :
    Finished answers job now first taken task c
      { c with cache := (c.cache.track job.workload node job.batch job.fetchTime).2 } := by
  obtain ⟨htaken, htask⟩ := consistent
  rw [stage] at htask
  obtain ⟨hidentity, hkept⟩ := htask
  have hlive (other : String) :
      (c.cache.track job.workload node job.batch job.fetchTime).2.isLive now other =
        c.cache.isLive now other :=
    Cache.isLive_congr (congrArg (·.find? other) (Cache.records_track ..)) now
  refine ⟨clock, ⟨fun other h => ?_, fun other h => ?_, fun other h => ?_⟩, fun other h => ?_,
    fun other h => ?_⟩
  · rw [hlive]
    exact bounds.lasting other h
  · rw [hlive] at h
    exact bounds.earned other h
  · rcases (Cache.contains_tracked_track ..).1 h with rfl | hold
    · exact hkept
    · exact bounds.tracked other hold
  · exact (Cache.contains_tracked_track ..).2 (.inr h)
  · exact (Cache.contains_tracked_track ..).2 (.inl (eq_of_identity hidentity h))

theorem Consistent.save {v : Validated} {node : String}
    (consistent : Consistent answers now first taken task)
    (bounds : Bounds answers job now first taken c.cache) (clock : c.now? = some now)
    (stage : task.stage = .approved v node) :
    Finished answers job now first taken task c
      { c with cache := (c.cache.save v job.workload job.batch job.fetchTime).2 } := by
  obtain ⟨htaken, htask⟩ := consistent
  rw [stage] at htask
  obtain ⟨hvalid, identified, short, hdead⟩ := htask
  have hidentity := answers.agree _ _ _ hvalid identified
  have hkept : answers.kept? now first task.attestation = some node :=
    kept?_eq_some_iff.2 ⟨hidentity, .inr (approves_iff.2 ⟨v, hvalid, identified, short⟩)⟩
  have hlive (other : String) (hother : other ≠ node) :
      (c.cache.save v job.workload job.batch job.fetchTime).2.isLive now other =
        c.cache.isLive now other := by
    refine Cache.isLive_congr (Cache.find?_records_save_of_ne _ _ _ _ ?_) now
    rw [identified]
    exact fun h => hother (Option.some.inj h).symm
  refine ⟨clock, ⟨fun other h => ?_, fun other h => ?_, fun other h => ?_⟩, fun other h => ?_,
    fun other h => ?_⟩
  · -- The node had no live record at the start, so none is lost.
    have hother : other ≠ node := by
      rintro rfl
      exact Bool.false_ne_true (hdead.symm.trans h)
    rw [hlive other hother]
    exact bounds.lasting other h
  · by_cases hother : other = node
    · exact .inr ⟨task.attestation, htaken, hother ▸ hkept⟩
    · rw [hlive other hother] at h
      exact bounds.earned other h
  · rcases (Cache.contains_tracked_save _ _ _ _ identified other).1 h with rfl | hold
    · exact ⟨task.attestation, htaken, hkept⟩
    · exact bounds.tracked other hold
  · exact (Cache.contains_tracked_save _ _ _ _ identified other).2 (.inr h)
  · exact (Cache.contains_tracked_save _ _ _ _ identified other).2
      (.inl (Option.some.inj (h.symm.trans hkept)))

theorem Consistent.finished {outcome : Option Outcome} (given : answers.GivenBy job now)
    (consistent : Consistent answers now first taken task)
    (bounds : Bounds answers job now first taken c.cache) (clock : c.now? = some now)
    (transition : task.Transition job timer c (.finished outcome) next) :
    outcome ≠ none ∧ Finished answers job now first taken task c next := by
  have htask := consistent.stage
  generalize hp : Task.Progress.finished outcome = progress at transition
  cases transition with
  | nameless _ verdict =>
    cases hp
    rw [given.identity_eq] at verdict ⊢
    refine ⟨Option.some_ne_none _, .of_unkept bounds ?_ fun node h => ?_⟩
    · exact (now?_pass_zero c).trans clock
    · cases (ofExcept_eq_accepted verdict).symm.trans (kept?_eq_some_iff.1 h).1
  | unidentified _ verdict =>
    cases hp
    rw [given.identity_eq] at verdict ⊢
    refine ⟨Option.some_ne_none _, .of_unkept bounds ?_ fun node h => ?_⟩
    · exact (now?_pass_zero c).trans clock
    · cases (ofExcept_eq_refused verdict).symm.trans (kept?_eq_some_iff.1 h).1
  | lost _ verdict =>
    rw [given.identity_eq] at verdict
    exact absurd verdict ofExcept_ne_crashed
  | untimed _ clock' | undated _ _ clock' => cases clock.symm.trans clock'
  | tracked stage =>
    refine ⟨?_, consistent.track bounds clock stage⟩
    rintro rfl
    unfold Task.onTracked at hp
    split at hp <;> cases hp
  | refused hstage verdict =>
    cases hp
    rw [hstage] at htask
    obtain ⟨node, hidentity, dead⟩ := htask
    rw [given.rule_eq task clock] at verdict ⊢
    refine ⟨Option.some_ne_none _, .of_unkept bounds ?_ fun other h => ?_⟩
    · exact (now?_pass_zero c).trans clock
    · obtain rfl := eq_of_identity hidentity h
      obtain ⟨v, hvalid, -⟩ := validated_of_kept?_eq_some dead h
      cases (ofExcept_eq_refused verdict).symm.trans hvalid
  | unreported _ _ clock' =>
    rw [given.rule_eq task clock, now?_pass_zero] at clock'
    cases clock.symm.trans clock'
  | crashed _ verdict =>
    rw [given.rule_eq task clock] at verdict
    exact absurd verdict ofExcept_ne_crashed
  | anonymous hstage unnamed =>
    cases hp
    rw [hstage] at htask
    obtain ⟨hvalid, node, hidentity, dead⟩ := htask
    refine ⟨Option.some_ne_none _, .of_unkept bounds clock fun other h => ?_⟩
    obtain rfl := eq_of_identity hidentity h
    obtain ⟨v, hvalid', named, -⟩ := validated_of_kept?_eq_some dead h
    cases hvalid.symm.trans hvalid'
    cases unnamed.symm.trans named
  | overlong hstage _ clock' long =>
    cases hp
    cases clock.symm.trans clock'
    rw [hstage] at htask
    obtain ⟨hvalid, node, hidentity, dead⟩ := htask
    refine ⟨Option.some_ne_none _, .of_unkept bounds clock fun other h => ?_⟩
    obtain rfl := eq_of_identity hidentity h
    obtain ⟨v, hvalid', -, short⟩ := validated_of_kept?_eq_some dead h
    cases hvalid.symm.trans hvalid'
    cases long.symm.trans short
  | saved stage =>
    refine ⟨?_, consistent.save bounds clock stage⟩
    rintro rfl
    unfold Task.onSaved at hp
    split at hp <;> cases hp
  | _ => cases hp

end Tasks

end Answers

end NodeAttestation
