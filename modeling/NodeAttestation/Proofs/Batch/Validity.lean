import NodeAttestation.Proofs.Batch.Change
import NodeAttestation.Proofs.Cache.Records
import NodeAttestation.Proofs.Time.Elapsing
import NodeAttestation.Proofs.Verification.Checks

/-!
# How long records are valid

An expiry that is not too far away when it is checked is never too far away afterwards, as long as
the clock is not set back. So neither is any that gets into the cache, whoever acts when.
-/

namespace NodeAttestation

/-- From no time that is still to be read off the clock is an expiry too far away. -/
def Clock.Permits (clock : Clock) (expiry : Instant) : Prop :=
  ∀ (later : Clock) now, clock.nanos ≤ later.nanos → later.now? = some now →
    expiry.sub now ≤ longestValidity

/-- No record of a cache expires too late. -/
def Client.IsBounded (c : Client) : Prop :=
  ∀ node record, c.cache.records.find? node = some record → c.clock.Permits record.expiry

section Clocks

variable {clock later : Clock} {expiry : Instant}

theorem Clock.Permits.mono (permits : clock.Permits expiry) (h : clock.nanos ≤ later.nanos) :
    later.Permits expiry := by
  intro latest now hle hnow
  exact permits latest now (Int.le_trans h hle) hnow

theorem Clock.permits_of_sub_le {now : Instant} (hnow : clock.now? = some now)
    (h : expiry.sub now ≤ longestValidity) : clock.Permits expiry := by
  intro later after hle hafter
  obtain ⟨hnanos, hleap⟩ := Clock.now?_eq_some hnow
  obtain ⟨hnanos', hleap'⟩ := Clock.now?_eq_some hafter
  rw [← hnanos, ← hnanos'] at hle
  have days : longestValidity = Span.hours (24 * (2 : Nat)) := rfl
  rw [days] at h ⊢
  exact Instant.sub_le_of_nanos_le hleap hleap' hle h

end Clocks

section Clients

variable {c next : Client}

theorem Client.isBounded_of_empty (h : c.cache = .empty) : c.IsBounded := by
  intro node record found
  rw [h] at found
  cases found

theorem Client.IsBounded.of_kept (bounded : c.IsBounded)
    (kept : ∀ node record, next.cache.records.find? node = some record →
      c.cache.records.find? node = some record)
    (h : c.clock.nanos ≤ next.clock.nanos) : next.IsBounded := by
  intro node record found
  exact (bounded node record (kept node record found)).mono h

theorem Client.IsBounded.idle (bounded : c.IsBounded) (idles : c.Idles next) : next.IsBounded := by
  apply bounded.of_kept _ idles.clock
  intro node record found
  rwa [idles.cache] at found

end Clients

/-- A record that is written is that of an attestation that has been approved. -/
theorem find?_records_write {job : Assignment} {c : Cache} {stage : Task.Stage} {node : String}
    {record : NodeRecord} (found : (stage.write job c).records.find? node = some record) :
    c.records.find? node = some record ∨
      ∃ v other, stage = .approved v other ∧ record.expiry = v.expiry := by
  cases stage with
  | known other =>
    rw [Task.Stage.write, Cache.records_track] at found
    exact .inl found
  | approved v other =>
    by_cases named : v.node = some node
    · cases tracked : (c.tracked job.workload job.batch).contains node with
      | true =>
        rw [Task.Stage.write, Cache.save, named] at found
        dsimp only at found
        rw [if_pos tracked] at found
        exact .inl found
      | false =>
        rw [Task.Stage.write, Cache.find?_records_save_self _ _ _ _ named tracked] at found
        cases found
        exact .inr ⟨v, other, rfl, rfl⟩
    · rw [Task.Stage.write, Cache.find?_records_save_of_ne _ _ _ _ named] at found
      exact .inl found
  | _ => exact .inl found

namespace Batch

/-- Neither a record nor an attestation that is about to be saved expires too late. -/
structure IsBounded (b : Batch) : Prop where
  client : b.client.IsBounded
  approved : ∀ task ∈ b.tasks, ∀ v node, task.stage = .approved v node →
    b.client.clock.Permits v.expiry

section Bounds

variable {plan : BatchPlan} {first b next : Batch} {h : History}

theorem IsBounded.change (bounded : b.IsBounded) (change : Change plan b next) :
    next.IsBounded := by
  have hclock := change.clock_le
  cases change with
  | aside client tasks =>
    constructor
    · exact bounded.client.idle ⟨client.cache_eq, hclock⟩
    · intro task htask v node hstage
      rcases tasks task htask with hold | hnew
      · exact (bounded.approved task hold v node hstage).mono hclock
      · rw [hnew] at hstage
        cases hstage
  | @went task timer stage member transition tasks =>
    constructor
    · exact bounded.client.idle ⟨transition.cache_eq_of_going, hclock⟩
    · intro other hother v node hstage
      rcases tasks other hother with hold | rfl
      · exact (bounded.approved other hold v node hstage).mono hclock
      · cases hstage
        obtain ⟨now, hnow, short⟩ := transition.approved_cases
        exact (Clock.permits_of_sub_le hnow (Task.span_le_of_not_tooLong short)).mono hclock
  | finished member transition tasks =>
    constructor
    · intro node record found
      rw [transition.cache_eq] at found
      rcases find?_records_write found with hold | ⟨v, other, hstage, hexpiry⟩
      · exact (bounded.client node record hold).mono hclock
      · rw [hexpiry]
        exact (bounded.approved _ member v other hstage).mono hclock
    · intro other hother v node hstage
      exact (bounded.approved other (tasks other hother) v node hstage).mono hclock

theorem isBounded_begin (messages : List (Frame.Item Response)) {c : Client}
    (bounded : c.IsBounded) : (plan.begin messages c).IsBounded where
  client := by
    refine bounded.of_kept ?_ (Int.le_refl _)
    intro node record found
    have found := (Cache.find?_records_deleteBatch ..).symm.trans found
    exact (Option.filter_eq_some_iff.1 found).1
  approved _ htask := nomatch htask

theorem Run.isBounded (run : Run plan Client.Idles first b h) (bounded : first.IsBounded) :
    b.IsBounded := by
  refine run.induct (I := IsBounded) bounded ?_ ?_
  · intro b _ next _ bounded change
    exact bounded.change change
  · intro b client bounded idles
    constructor
    · exact bounded.client.idle idles
    · intro task htask v node hstage
      exact (bounded.approved task htask v node hstage).mono idles.clock

end Bounds

section Courses

variable {plan : BatchPlan} {others : Client → Client → Prop} {first b next : Batch} {h : History}
  {met : Client → Prop}

/-- Each task has come its way, and each outcome is what some task has come to. -/
structure IsTraced (plan : BatchPlan) (met : Client → Prop) (b : Batch) : Prop where
  tasks : ∀ task ∈ b.tasks, ∃ checks, task.Course plan.job met checks
  outcomes : ∀ o ∈ b.outcomes, ∃ checks, Task.Reports plan.job met o checks

theorem IsTraced.change (traced : b.IsTraced plan met) (meets : met b.client)
    (change : Change plan b next) : next.IsTraced plan met := by
  cases change with
  | aside client tasks outcomes =>
    constructor
    · intro task htask
      rcases tasks task htask with hold | hnew
      · exact traced.tasks task hold
      · exact ⟨[], .submitted hnew⟩
    · intro o ho
      exact traced.outcomes o (outcomes o ho)
  | went member transition tasks outcomes =>
    constructor
    · intro other hother
      rcases tasks other hother with hold | rfl
      · exact traced.tasks other hold
      · obtain ⟨checks, course⟩ := traced.tasks _ member
        exact ⟨_, course.step meets transition⟩
    · intro o ho
      exact traced.outcomes o (outcomes o ho)
  | finished member transition tasks outcomes =>
    constructor
    · intro other hother
      exact traced.tasks other (tasks other hother)
    · intro o ho
      rcases outcomes o ho with hold | rfl
      · exact traced.outcomes o hold
      · obtain ⟨checks, course⟩ := traced.tasks _ member
        exact ⟨_, .finished course meets transition⟩

theorem Run.isTraced {messages : List (Frame.Item Response)} {c : Client}
    (run : Run plan others (plan.begin messages c) b h)
    (meets : ∀ b h, Run plan others (plan.begin messages c) b h → met b.client) :
    b.IsTraced plan met := by
  refine run.induct (I := IsTraced plan met) ?_ ?_ ?_
  · constructor
    · intro task htask
      cases htask
    · intro o ho
      cases ho
  · intro b h next run traced change
    exact traced.change (meets b h run) change
  · intro b client traced _
    exact ⟨traced.tasks, traced.outcomes⟩

end Courses

end Batch

end NodeAttestation
