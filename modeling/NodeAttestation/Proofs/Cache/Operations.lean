import NodeAttestation.Proofs.Cache.Records

/-!
# Sequences of operations on a cache

The operations keep records, batches and workloads in step with each other: whatever is done to an
empty cache, each record is that of a tracked node, each batch tracks a node and each workload has
a batch.
-/

namespace NodeAttestation.Cache

inductive Operation where
  | track (w : Workload) (node : String) (batch : Nat) (fetchTime : Instant)
  | save (v : Validated) (w : Workload) (batch : Nat) (fetchTime : Instant)
  | delete (w : Workload) (batch : Nat)
  | clear

def perform (c : Cache) : Operation → Cache
  | .track w node batch fetchTime => (c.track w node batch fetchTime).2
  | .save v w batch fetchTime => (c.save v w batch fetchTime).2
  | .delete w batch => c.deleteBatch w batch
  | .clear => .empty

/-- Nothing is kept that is of no use to anything else. -/
structure IsTidy (c : Cache) : Prop where
  records : ∀ node, c.records.contains node = true → ∃ w n, (c.tracked w n).contains node = true
  nodes : ∀ w n entry, c.batch? w n = some entry → entry.nodes ≠ .empty
  batches : ∀ w held, c.workloads.find? w = some held → held ≠ .empty

section Adding

variable {c : Cache} {w : Workload} {n : Nat} {fetchTime : Instant} {node : String}

theorem nodes_addNode (tidy : c.IsTidy) {other : Workload} {m : Nat} {entry : TrackedBatch}
    (h : (c.addNode w n fetchTime node).batch? other m = some entry) : entry.nodes ≠ .empty := by
  by_cases hsame : (other, m) = (w, n)
  · obtain ⟨rfl, rfl⟩ := Prod.mk.inj hsame
    have hnodes := tracked_of_batch? _ _ _ h
    rw [tracked_addNode] at hnodes
    rw [← hnodes]
    exact (c.tracked other m).insert_ne_empty node ()
  · rw [addNode, batch?_setBatch_of_ne _ _ _ _ hsame] at h
    exact tidy.nodes other m entry h

theorem batches_addNode (tidy : c.IsTidy) {other : Workload} {held : SortedMap Nat TrackedBatch}
    (h : (c.addNode w n fetchTime node).workloads.find? other = some held) : held ≠ .empty := by
  rw [addNode, setBatch] at h
  dsimp only at h
  by_cases hsame : other = w
  · rw [hsame, SortedMap.find?_insert_self, Option.some.injEq] at h
    rw [← h]
    exact (c.batches w).insert_ne_empty n _
  · rw [SortedMap.find?_insert_of_ne _ _ hsame] at h
    exact tidy.batches other held h

theorem IsTidy.track (tidy : c.IsTidy) (w : Workload) (node : String) (n : Nat)
    (fetchTime : Instant) : (c.track w node n fetchTime).2.IsTidy where
  records other hrecord := by
    rw [records_track] at hrecord
    rw [← isTracked_iff, isTracked_track]
    exact .inr (c.isTracked_iff.2 (tidy.records other hrecord))
  nodes other m entry h := by
    rw [Cache.track] at h
    split at h
    · exact tidy.nodes other m entry h
    · exact nodes_addNode tidy h
  batches other held h := by
    rw [Cache.track] at h
    split at h
    · exact tidy.batches other held h
    · exact batches_addNode tidy h

/-- A record that is there after saving was there before, or its node is tracked now. -/
theorem IsTidy.save (tidy : c.IsTidy) (v : Validated) (w : Workload) (n : Nat)
    (fetchTime : Instant) : (c.save v w n fetchTime).2.IsTidy := by
  rw [Cache.save]
  cases hnode : v.node with
  | none => exact tidy
  | some node =>
    dsimp only
    split
    · exact tidy
    · refine ⟨fun other hrecord => ?_, fun other m entry h => nodes_addNode tidy h,
        fun other held h => batches_addNode tidy h⟩
      have htracked : (c.addNode w n fetchTime node).isTracked other = true := by
        rw [isTracked_addNode]
        refine ((SortedMap.contains_insert ..).1 hrecord).imp id fun hold => ?_
        exact c.isTracked_iff.2 (tidy.records other hold)
      exact (isTracked_iff _).1 htracked

end Adding

section Deleting

variable {c : Cache}

theorem workloads_withoutBatch {w other : Workload} {n : Nat} {held : SortedMap Nat TrackedBatch}
    (h : (c.withoutBatch w n).workloads.find? other = some held) :
    c.workloads.find? other = some held ∨ held ≠ .empty := by
  unfold withoutBatch at h
  split at h
  · exact .inl h
  · rename_i batches hfound
    dsimp only at h
    by_cases hsame : other = w
    · subst hsame
      split at h
      · rw [SortedMap.find?_erase_self] at h
        cases h
      · rename_i hleft
        rw [SortedMap.find?_insert_self, Option.some.injEq] at h
        rw [← h]
        exact .inr fun hempty => hleft (by rw [hempty]; rfl)
    · split at h
      · rw [SortedMap.find?_erase_of_ne _ hsame] at h
        exact .inl h
      · rw [SortedMap.find?_insert_of_ne _ _ hsame] at h
        exact .inl h

theorem IsTidy.deleteBatch (tidy : c.IsTidy) (w : Workload) (n : Nat) :
    (c.deleteBatch w n).IsTidy where
  records node hrecord := by
    rw [SortedMap.contains, find?_records_deleteBatch, Option.isSome_iff_exists] at hrecord
    obtain ⟨record, hrecord⟩ := hrecord
    exact (isTracked_iff _).1 (Option.filter_eq_some_iff.1 hrecord).2
  nodes other m entry h := by
    by_cases hsame : (other, m) = (w, n)
    · obtain ⟨rfl, rfl⟩ := Prod.mk.inj hsame
      rw [batch?_deleteBatch_self] at h
      cases h
    · rw [batch?_deleteBatch_of_ne _ _ _ hsame] at h
      exact tidy.nodes other m entry h
  batches other held h := by
    rcases workloads_withoutBatch h with hold | hleft
    · exact tidy.batches other held hold
    · exact hleft

end Deleting

section Sequences

variable {c : Cache}

theorem isTidy_empty : empty.IsTidy where
  records _ hrecord := absurd hrecord Bool.false_ne_true
  nodes _ _ _ h := nomatch h
  batches _ _ h := nomatch h

theorem IsTidy.perform (tidy : c.IsTidy) (operation : Operation) :
    (c.perform operation).IsTidy := by
  cases operation with
  | track w node n fetchTime => exact tidy.track w node n fetchTime
  | save v w n fetchTime => exact tidy.save v w n fetchTime
  | delete w n => exact tidy.deleteBatch w n
  | clear => exact isTidy_empty

theorem IsTidy.foldl_perform (tidy : c.IsTidy) (operations : List Operation) :
    (operations.foldl Cache.perform c).IsTidy := by
  induction operations generalizing c with
  | nil => exact tidy
  | cons operation operations ih => exact ih (tidy.perform operation)

/-- A batch that tracks nothing is not there at all. -/
theorem IsTidy.trackedCount_eq_zero_iff (tidy : c.IsTidy) (w : Workload) (n : Nat) :
    c.trackedCount w n = 0 ↔ c.batch? w n = none := by
  rw [trackedCount, tracked]
  cases hentry : c.batch? w n with
  | none => exact iff_of_true rfl rfl
  | some entry =>
    refine iff_of_false (fun hsize => ?_) (Option.some_ne_none entry)
    exact tidy.nodes w n entry hentry (SortedMap.size_eq_zero_iff.1 hsize)

/-- Whatever has been done to an empty cache, it holds no record of a node that no batch tracks, no
batch without nodes and no workload without batches. -/
theorem isTidy_of_operations (operations : List Operation) :
    (operations.foldl perform .empty).IsTidy ∧
      ∀ w n, (operations.foldl perform .empty).trackedCount w n = 0 ↔
        (operations.foldl perform .empty).batch? w n = none := by
  have tidy := isTidy_empty.foldl_perform operations
  exact ⟨tidy, tidy.trackedCount_eq_zero_iff⟩

end Sequences

end NodeAttestation.Cache
