import NodeAttestation.Proofs.Cache.Records

/-!
# Operations on one batch and the other batches

Deleting a batch, tracking a node for it and saving one for it leave all other batches alone, and
they drop no record that another batch keeps. A batch that comes to track a node gains no other, and
no other node gets a record with it.
-/

namespace NodeAttestation.Cache

variable {c d e : Cache} {w : Workload} {n : Nat} {node : String}

/-- A batch other than this one tracks the node. -/
def TrackedElsewhere (c : Cache) (w : Workload) (n : Nat) (node : String) : Prop :=
  ∃ other m, (other, m) ≠ (w, n) ∧ (c.tracked other m).contains node = true

/-- What has become of a cache while only one batch has been at work on it. -/
structure Spares (w : Workload) (n : Nat) (c next : Cache) : Prop where
  batches : ∀ other m, (other, m) ≠ (w, n) → next.batch? other m = c.batch? other m
  records : ∀ node, c.TrackedElsewhere w n node → c.records.contains node = true →
    next.records.contains node = true

section Spares

theorem Spares.refl (w : Workload) (n : Nat) (c : Cache) : Spares w n c c where
  batches _ _ _ := rfl
  records _ _ h := h

theorem Spares.trackedElsewhere (spares : Spares w n c d) (h : c.TrackedElsewhere w n node) :
    d.TrackedElsewhere w n node := by
  obtain ⟨other, m, hne, hnode⟩ := h
  refine ⟨other, m, hne, ?_⟩
  rwa [tracked_congr other m (spares.batches other m hne)]

theorem Spares.trans (first : Spares w n c d) (second : Spares w n d e) : Spares w n c e where
  batches other m hne := (second.batches other m hne).trans (first.batches other m hne)
  records node helsewhere h :=
    second.records node (first.trackedElsewhere helsewhere) (first.records node helsewhere h)

end Spares

/-- A batch still has the nodes it had in an earlier cache, and has lost no record of them. -/
structure Retains (w : Workload) (n : Nat) (c next : Cache) : Prop where
  batch : next.batch? w n = c.batch? w n
  records : ∀ node, (c.tracked w n).contains node = true → c.records.contains node = true →
    next.records.contains node = true

section Retains

theorem Retains.refl (w : Workload) (n : Nat) (c : Cache) : Retains w n c c where
  batch := rfl
  records _ _ h := h

theorem Retains.trans (first : Retains w n c d) (second : Retains w n d e) : Retains w n c e where
  batch := second.batch.trans first.batch
  records node hnode h := by
    have hlater : (d.tracked w n).contains node = true := by
      rwa [tracked_congr w n first.batch]
    exact second.records node hlater (first.records node hnode h)

theorem Spares.retains {other : Workload} {m : Nat} (spares : Spares w n c d)
    (h : (other, m) ≠ (w, n)) : Retains other m c d where
  batch := spares.batches other m h
  records node hnode := spares.records node ⟨other, m, h, hnode⟩

end Retains

section Delete

theorem isTracked_deleteBatch_iff :
    (c.deleteBatch w n).isTracked node = true ↔ c.TrackedElsewhere w n node := by
  rw [isTracked_iff, TrackedElsewhere]
  simp only [contains_tracked_deleteBatch_iff]

theorem find?_records_deleteBatch_of_elsewhere (h : c.TrackedElsewhere w n node) :
    (c.deleteBatch w n).records.find? node = c.records.find? node := by
  rw [find?_records_deleteBatch, isTracked_deleteBatch_iff.2 h]
  cases c.records.find? node <;> rfl

theorem spares_deleteBatch (c : Cache) (w : Workload) (n : Nat) :
    Spares w n c (c.deleteBatch w n) where
  batches _ _ hne := batch?_deleteBatch_of_ne c w n hne
  records node helsewhere h := by
    rw [SortedMap.contains, find?_records_deleteBatch_of_elsewhere helsewhere]
    exact h

end Delete

section Add

variable (c : Cache) (w : Workload) (n : Nat) (fetchTime : Instant)

theorem spares_track (node : String) : Spares w n c (c.track w node n fetchTime).2 := by
  rw [track]
  split
  · exact .refl w n c
  · exact ⟨fun other m hne => batch?_setBatch_of_ne c w n _ hne, fun _ _ h => h⟩

theorem spares_save (v : Validated) : Spares w n c (c.save v w n fetchTime).2 := by
  refine ⟨fun other m hne => ?_, fun node _ h => contains_records_save c w n fetchTime h⟩
  rw [save]
  cases v.node with
  | none => rfl
  | some node =>
    dsimp only
    split
    · rfl
    · exact batch?_setBatch_of_ne c w n _ hne

end Add

/-- What has become of a cache after one batch has come to track one more node. -/
structure Gains (w : Workload) (n : Nat) (fetchTime : Instant) (node : String) (c next : Cache) :
    Prop where
  new : (c.tracked w n).contains node = false
  batch : next.batch? w n = some
    ⟨((c.batch? w n).map TrackedBatch.fetchTime).getD fetchTime, (c.tracked w n).insert node ()⟩
  batches : ∀ other m, (other, m) ≠ (w, n) → next.batch? other m = c.batch? other m
  records : ∀ other, other ≠ node → next.records.find? other = c.records.find? other

section Gains

variable {fetchTime : Instant}

theorem batch?_addNode (c : Cache) (w : Workload) (n : Nat) (fetchTime : Instant) (node : String) :
    (c.addNode w n fetchTime node).batch? w n = some
      ⟨((c.batch? w n).map TrackedBatch.fetchTime).getD fetchTime,
        (c.tracked w n).insert node ()⟩ := by
  rw [addNode, batch?_setBatch_self, tracked]
  cases c.batch? w n <;> rfl

theorem gains_addNode (new : (c.tracked w n).contains node = false) :
    Gains w n fetchTime node c (c.addNode w n fetchTime node) where
  new := new
  batch := batch?_addNode c w n fetchTime node
  batches _ _ hne := batch?_setBatch_of_ne c w n _ hne
  records _ _ := rfl

/-- The record of the node that has been gained may be replaced as well. -/
theorem Gains.insert (gains : Gains w n fetchTime node c d) (record : NodeRecord) :
    Gains w n fetchTime node c { d with records := d.records.insert node record } where
  new := gains.new
  batch := gains.batch
  batches := gains.batches
  records other hne :=
    (SortedMap.find?_insert_of_ne _ _ hne).trans (gains.records other hne)

theorem Gains.tracked_eq (gains : Gains w n fetchTime node c d) :
    d.tracked w n = (c.tracked w n).insert node () :=
  tracked_of_batch? _ _ _ gains.batch

theorem Gains.ne (gains : Gains w n fetchTime node c d) : d ≠ c := by
  rintro rfl
  have held : (d.tracked w n).contains node = true := by
    rw [gains.tracked_eq, SortedMap.contains_insert]
    exact .inl rfl
  exact Bool.false_ne_true (gains.new.symm.trans held)

end Gains

end NodeAttestation.Cache
