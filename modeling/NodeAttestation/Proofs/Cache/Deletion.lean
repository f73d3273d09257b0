import NodeAttestation.Proofs.Cache.Expiry
import NodeAttestation.Proofs.Cache.Locality

/-!
# Deleting a batch

A batch takes with it exactly the records that no other batch of any workload keeps. Deleting it
again changes nothing, and of two batches either may be deleted first. Both are told from the
batches and the records that are left, for in a cache that holds nothing of no use there is nothing
else.
-/

namespace NodeAttestation.Cache

variable {c d : Cache} {w : Workload} {n : Nat} {node : String}

section Told

theorem IsTidy.find?_workloads_eq_some_iff (tidy : c.IsTidy) {held : SortedMap Nat TrackedBatch} :
    c.workloads.find? w = some held ↔ held ≠ .empty ∧ c.batches w = held := by
  rw [Cache.batches]
  cases found : c.workloads.find? w with
  | none =>
    refine iff_of_false (Option.some_ne_none held).symm ?_
    rintro ⟨nonempty, hempty⟩
    exact nonempty hempty.symm
  | some known =>
    rw [Option.getD_some, Option.some.injEq]
    refine ⟨?_, fun h => h.2⟩
    rintro rfl
    exact ⟨tidy.batches w known found, rfl⟩

/-- A tidy cache is determined by its batches and its records. -/
theorem IsTidy.ext (hc : c.IsTidy) (hd : d.IsTidy) (batches : ∀ w n, c.batch? w n = d.batch? w n)
    (records : ∀ node, c.records.find? node = d.records.find? node) : c = d := by
  have same (w : Workload) : c.batches w = d.batches w := SortedMap.ext (batches w)
  have hworkloads : c.workloads = d.workloads := by
    apply SortedMap.ext
    intro w
    apply Option.ext
    intro held
    rw [hc.find?_workloads_eq_some_iff, hd.find?_workloads_eq_some_iff, same]
  have hrecords : c.records = d.records := SortedMap.ext records
  cases c
  cases d
  cases hworkloads
  cases hrecords
  rfl

end Told

section Left

/-- Just the records of nodes that another batch tracks are left, and they are left as they are. -/
theorem find?_records_deleteBatch_eq_some_iff {record : NodeRecord} :
    (c.deleteBatch w n).records.find? node = some record ↔
      c.records.find? node = some record ∧ c.TrackedElsewhere w n node := by
  rw [find?_records_deleteBatch, Option.filter_eq_some_iff, isTracked_deleteBatch_iff]

theorem batch?_deleteBatch (c : Cache) (w other : Workload) (n m : Nat) :
    (c.deleteBatch w n).batch? other m =
      if (other, m) = (w, n) then none else c.batch? other m := by
  split
  · rename_i same
    obtain ⟨rfl, rfl⟩ := Prod.mk.inj same
    exact batch?_deleteBatch_self ..
  · rename_i differs
    exact batch?_deleteBatch_of_ne c w n differs

theorem trackedElsewhere_deleteBatch_iff {other : Workload} {m : Nat} :
    (c.deleteBatch w n).TrackedElsewhere other m node ↔
      ∃ third k, (third, k) ≠ (other, m) ∧ (third, k) ≠ (w, n) ∧
        (c.tracked third k).contains node = true := by
  rw [TrackedElsewhere]
  simp only [contains_tracked_deleteBatch_iff]

end Left

section Laws

/-- Deleting a batch that is not there changes nothing. -/
theorem IsTidy.deleteBatch_eq_self (tidy : c.IsTidy) (absent : c.batch? w n = none) :
    c.deleteBatch w n = c := by
  refine (tidy.deleteBatch w n).ext tidy (fun other m => ?_) fun node => Option.ext fun record => ?_
  · rw [batch?_deleteBatch]
    split
    · rename_i same
      obtain ⟨rfl, rfl⟩ := Prod.mk.inj same
      exact absent.symm
    · rfl
  · rw [find?_records_deleteBatch_eq_some_iff, and_iff_left_iff_imp]
    intro recorded
    obtain ⟨other, m, held⟩ := tidy.records node (Option.isSome_iff_exists.2 ⟨record, recorded⟩)
    refine ⟨other, m, ?_, held⟩
    rintro same
    obtain ⟨rfl, rfl⟩ := Prod.mk.inj same
    rw [tracked_of_batch?_eq_none _ _ _ absent] at held
    cases held

theorem IsTidy.deleteBatch_comm (tidy : c.IsTidy) (w other : Workload) (n m : Nat) :
    (c.deleteBatch w n).deleteBatch other m = (c.deleteBatch other m).deleteBatch w n := by
  refine ((tidy.deleteBatch w n).deleteBatch other m).ext
    ((tidy.deleteBatch other m).deleteBatch w n) (fun third k => ?_)
    fun node => Option.ext fun record => ?_
  · simp only [batch?_deleteBatch]
    split <;> split <;> rfl
  · -- What is left is tracked by a third batch, whichever of the two is deleted first.
    simp only [find?_records_deleteBatch_eq_some_iff, trackedElsewhere_deleteBatch_iff]
    constructor
    · rintro ⟨⟨recorded, -⟩, third, k, second, first, held⟩
      exact ⟨⟨recorded, third, k, second, held⟩, third, k, first, second, held⟩
    · rintro ⟨⟨recorded, -⟩, third, k, first, second, held⟩
      exact ⟨⟨recorded, third, k, first, held⟩, third, k, second, first, held⟩

/-- Whatever has been done to an empty cache, a batch that is deleted is gone with the nodes it
tracked, all other batches of all workloads are left as they are with their nodes and the times at
which they were fetched, and so is a record if and only if one of them tracks its node. No other
record is there. Deleting the batch again changes nothing, and it may be deleted before any other
batch or after it. -/
theorem deleteBatch_drops_own (operations : List Operation) (w : Workload) (n : Nat) :
    let c := operations.foldl perform .empty
    let left := c.deleteBatch w n
    (left.batch? w n = none ∧ left.tracked w n = .empty) ∧
      (∀ other m, (other, m) ≠ (w, n) → left.batch? other m = c.batch? other m) ∧
      (∀ node record, left.records.find? node = some record ↔
        c.records.find? node = some record ∧ c.TrackedElsewhere w n node) ∧
      left.deleteBatch w n = left ∧
      ∀ other m, left.deleteBatch other m = (c.deleteBatch other m).deleteBatch w n := by
  intro c left
  have tidy : c.IsTidy := isTidy_empty.foldl_perform operations
  refine ⟨⟨batch?_deleteBatch_self c w n, tracked_deleteBatch c w n⟩,
    fun other m differs => batch?_deleteBatch_of_ne c w n differs,
    fun node record => find?_records_deleteBatch_eq_some_iff, ?_,
    fun other m => tidy.deleteBatch_comm w other n m⟩
  exact (tidy.deleteBatch w n).deleteBatch_eq_self (batch?_deleteBatch_self c w n)

end Laws

section Shared

def search : Workload := ⟨"search", .empty⟩

/-- Two nodes are saved for a batch, and one of them is tracked for another workload as well. -/
def sharedNode : List Operation :=
  [.save (validUntil (hour 7)) inference 0 (hour 6),
    .save { validUntil (hour 8) with node := some "m" } inference 0 (hour 6),
    .track search "n" 3 (hour 6)]

theorem deleteBatch_drops_own_of_sharedNode :
    let c := sharedNode.foldl perform .empty
    (c.deleteBatch inference 0).batch? search 3 = c.batch? search 3 ∧
      (c.deleteBatch inference 0).records.find? "n" = some (recordOf (validUntil (hour 7))) ∧
      (c.deleteBatch inference 0).records.find? "m" = none ∧
      (c.deleteBatch inference 0).deleteBatch search 3 = .empty := by
  intro c
  obtain ⟨-, others, kept, -, comm⟩ := deleteBatch_drops_own sharedNode inference 0
  refine ⟨others search 3 (by decide), ?_, by rfl, ?_⟩
  · exact (kept "n" _).2 ⟨by rfl, search, 3, by decide, by rfl⟩
  · rw [comm search 3]
    rfl

end Shared

end NodeAttestation.Cache
