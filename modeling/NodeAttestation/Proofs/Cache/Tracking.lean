import NodeAttestation.Cache.Basic
import NodeAttestation.Proofs.Keys

/-! # What the operations of a cache do to the batches that it knows. -/

namespace NodeAttestation.Cache

variable (c : Cache) (w : Workload) (n : Nat)

section Batches

theorem batches_setBatch_self (entry : TrackedBatch) :
    (c.setBatch w n entry).batches w = (c.batches w).insert n entry := by
  rw [setBatch, batches, SortedMap.find?_insert_self, Option.getD_some]

theorem batches_setBatch_of_ne {other : Workload} (entry : TrackedBatch) (h : other ≠ w) :
    (c.setBatch w n entry).batches other = c.batches other := by
  rw [setBatch, batches, SortedMap.find?_insert_of_ne _ _ h, batches]

theorem batches_withoutBatch_self : (c.withoutBatch w n).batches w = (c.batches w).erase n := by
  cases hfound : c.workloads.find? w with
  | none =>
    rw [withoutBatch, hfound, batches, hfound]
    rfl
  | some held =>
    have hheld : c.batches w = held := by
      rw [batches, hfound, Option.getD_some]
    rw [withoutBatch, hfound, hheld]
    dsimp only
    split
    · rename_i hlast
      have hempty : held.erase n = .empty := SortedMap.ext_entries (List.isEmpty_iff.1 hlast)
      rw [batches, SortedMap.find?_erase_self, hempty, Option.getD_none]
    · rw [batches, SortedMap.find?_insert_self, Option.getD_some]

theorem batches_withoutBatch_of_ne {other : Workload} (h : other ≠ w) :
    (c.withoutBatch w n).batches other = c.batches other := by
  unfold withoutBatch
  split
  · rfl
  · dsimp only
    split
    · rw [batches, SortedMap.find?_erase_of_ne _ h, batches]
    · rw [batches, SortedMap.find?_insert_of_ne _ _ h, batches]

end Batches

section Batch

theorem batch?_setBatch_self (entry : TrackedBatch) :
    (c.setBatch w n entry).batch? w n = some entry := by
  rw [batch?, batches_setBatch_self, SortedMap.find?_insert_self]

theorem batch?_setBatch_of_ne {other : Workload} {m : Nat} (entry : TrackedBatch)
    (h : (other, m) ≠ (w, n)) : (c.setBatch w n entry).batch? other m = c.batch? other m := by
  by_cases hw : other = w
  · have hm : m ≠ n := fun hm => h (by rw [hw, hm])
    rw [batch?, hw, batches_setBatch_self, SortedMap.find?_insert_of_ne _ _ hm, batch?]
  · rw [batch?, batches_setBatch_of_ne _ _ _ _ hw, batch?]

theorem batch?_prune (other : Workload) (m : Nat) : c.prune.batch? other m = c.batch? other m := rfl

theorem batch?_deleteBatch_self : (c.deleteBatch w n).batch? w n = none := by
  rw [deleteBatch, batch?_prune, batch?, batches_withoutBatch_self, SortedMap.find?_erase_self]

theorem batch?_deleteBatch_of_ne {other : Workload} {m : Nat} (h : (other, m) ≠ (w, n)) :
    (c.deleteBatch w n).batch? other m = c.batch? other m := by
  rw [deleteBatch, batch?_prune]
  by_cases hw : other = w
  · have hm : m ≠ n := fun hm => h (by rw [hw, hm])
    rw [batch?, hw, batches_withoutBatch_self, SortedMap.find?_erase_of_ne _ hm, batch?]
  · rw [batch?, batches_withoutBatch_of_ne _ _ _ hw, batch?]

end Batch

section Tracked

theorem tracked_of_batch? {entry : TrackedBatch} (h : c.batch? w n = some entry) :
    c.tracked w n = entry.nodes := by
  rw [tracked, h]

theorem tracked_of_batch?_eq_none (h : c.batch? w n = none) : c.tracked w n = .empty := by
  rw [tracked, h]

theorem tracked_congr {c d : Cache} (h : c.batch? w n = d.batch? w n) :
    c.tracked w n = d.tracked w n := by
  rw [tracked, tracked, h]

theorem tracked_addNode (fetchTime : Instant) (node : String) :
    (c.addNode w n fetchTime node).tracked w n = (c.tracked w n).insert node () := by
  rw [addNode, tracked_of_batch? _ _ _ (batch?_setBatch_self ..)]
  cases h : c.batch? w n with
  | none => rw [tracked_of_batch?_eq_none _ _ _ h, Option.getD_none]
  | some entry => rw [tracked_of_batch? _ _ _ h, Option.getD_some]

theorem tracked_deleteBatch : (c.deleteBatch w n).tracked w n = .empty :=
  tracked_of_batch?_eq_none _ _ _ (batch?_deleteBatch_self ..)

end Tracked

section Opening

/-- Makes sure that a batch is there, if need be without nodes. -/
def openBatch (fetchTime : Instant) : Cache :=
  match c.batch? w n with
  | some _ => c
  | none => c.setBatch w n ⟨fetchTime, .empty⟩

variable (fetchTime : Instant)

theorem setBatch_setBatch (first second : TrackedBatch) :
    (c.setBatch w n first).setBatch w n second = c.setBatch w n second := by
  have hbatches := c.batches_setBatch_self w n first
  rw [setBatch, hbatches, SortedMap.insert_insert_self, setBatch, SortedMap.insert_insert_self]
  rfl

theorem tracked_openBatch : (c.openBatch w n fetchTime).tracked w n = c.tracked w n := by
  rw [openBatch]
  cases h : c.batch? w n with
  | some entry => rfl
  | none =>
    exact (tracked_of_batch? _ _ _ (batch?_setBatch_self ..)).trans
      (tracked_of_batch?_eq_none _ _ _ h).symm

theorem openBatch_of_tracked {node : String} (held : (c.tracked w n).contains node = true) :
    c.openBatch w n fetchTime = c := by
  rw [openBatch]
  cases h : c.batch? w n with
  | some entry => rfl
  | none =>
    rw [tracked_of_batch?_eq_none _ _ _ h] at held
    exact absurd held Bool.false_ne_true

theorem addNode_openBatch (node : String) :
    (c.openBatch w n fetchTime).addNode w n fetchTime node = c.addNode w n fetchTime node := by
  cases h : c.batch? w n with
  | some entry =>
    rw [openBatch, h]
  | none =>
    have hopened : c.openBatch w n fetchTime = c.setBatch w n ⟨fetchTime, .empty⟩ := by
      rw [openBatch, h]
    rw [hopened, addNode, batch?_setBatch_self, addNode, h]
    exact setBatch_setBatch ..

/-- A batch may be opened before it is asked for a node: a node that it tracks shows that it is
there already, and any other opens it anyway. -/
theorem track_openBatch (node : String) :
    (c.openBatch w n fetchTime).track w node n fetchTime = c.track w node n fetchTime := by
  rw [track, track, tracked_openBatch, addNode_openBatch]
  split
  · rename_i held
    rw [c.openBatch_of_tracked w n fetchTime held]
  · rfl

theorem save_openBatch {v : Validated} {node : String} (identified : v.node = some node) :
    (c.openBatch w n fetchTime).save v w n fetchTime = c.save v w n fetchTime := by
  rw [save, save, identified]
  dsimp only
  rw [tracked_openBatch, addNode_openBatch]
  split
  · rename_i held
    rw [c.openBatch_of_tracked w n fetchTime held]
  · rfl

end Opening

end NodeAttestation.Cache
