import NodeAttestation.Proofs.Cache.Tracking

/-!
# The records of a cache

Which nodes have a record and which of the records are live, after each operation. A node that
some batch tracks and that has no record is a phantom: only tracking a node without a record makes
one.
-/

namespace NodeAttestation.Cache

variable (c : Cache) (w : Workload) (n : Nat) (fetchTime : Instant)

/-- Whether a batch tracks a node of which there is no record. -/
def isPhantom (node : String) : Bool := c.isTracked node && !c.records.contains node

section Live

theorem isLive_iff {now : Instant} {node : String} :
    c.isLive now node = true ↔
      ∃ record, c.records.find? node = some record ∧ now < record.expiry := by
  rw [isLive]
  cases c.records.find? node with
  | none => simp
  | some record => simp

theorem isLive_congr {c d : Cache} {node : String}
    (h : c.records.find? node = d.records.find? node) (now : Instant) :
    c.isLive now node = d.isLive now node := by
  rw [isLive, isLive, h]

theorem contains_records_of_isLive {now : Instant} {node : String}
    (h : c.isLive now node = true) : c.records.contains node = true := by
  obtain ⟨record, hfound, -⟩ := (c.isLive_iff).1 h
  rw [SortedMap.contains, hfound]
  rfl

end Live

section Tracked

theorem contains_tracked_iff {node : String} :
    (c.tracked w n).contains node = true ↔
      ∃ entry, c.batch? w n = some entry ∧ entry.nodes.contains node = true := by
  rw [tracked]
  cases c.batch? w n with
  | none => simp [SortedMap.contains]
  | some entry => simp

theorem batch?_eq_some_iff {entry : TrackedBatch} :
    c.batch? w n = some entry ↔
      ∃ batches, c.workloads.find? w = some batches ∧ batches.find? n = some entry := by
  rw [batch?, batches]
  cases c.workloads.find? w with
  | none => simp
  | some held => simp

theorem isTracked_iff {node : String} :
    c.isTracked node = true ↔ ∃ w n, (c.tracked w n).contains node = true := by
  simp only [isTracked, List.any_eq_true, SortedMap.mem_values_iff, contains_tracked_iff,
    batch?_eq_some_iff]
  constructor
  · rintro ⟨held, ⟨w, hw⟩, entry, ⟨n, hn⟩, hnode⟩
    exact ⟨w, n, entry, ⟨held, hw, hn⟩, hnode⟩
  · rintro ⟨w, n, entry, ⟨held, hw, hn⟩, hnode⟩
    exact ⟨held, ⟨w, hw⟩, entry, ⟨n, hn⟩, hnode⟩

theorem tracked_addNode_of_ne {other : Workload} {m : Nat} (node : String)
    (h : (other, m) ≠ (w, n)) :
    (c.addNode w n fetchTime node).tracked other m = c.tracked other m :=
  tracked_congr other m (batch?_setBatch_of_ne _ _ _ _ h)

theorem isTracked_addNode (node other : String) :
    (c.addNode w n fetchTime node).isTracked other = true ↔
      other = node ∨ c.isTracked other = true := by
  rw [isTracked_iff, isTracked_iff]
  constructor
  · rintro ⟨w', m, hnode⟩
    by_cases hsame : (w', m) = (w, n)
    · obtain ⟨rfl, rfl⟩ := Prod.mk.inj hsame
      rw [tracked_addNode, SortedMap.contains_insert] at hnode
      exact hnode.imp id fun hold => ⟨w', m, hold⟩
    · rw [tracked_addNode_of_ne c w n fetchTime node hsame] at hnode
      exact .inr ⟨w', m, hnode⟩
  · rintro (rfl | ⟨w', m, hnode⟩)
    · refine ⟨w, n, ?_⟩
      rw [tracked_addNode, SortedMap.contains_insert]
      exact .inl rfl
    · refine ⟨w', m, ?_⟩
      by_cases hsame : (w', m) = (w, n)
      · obtain ⟨rfl, rfl⟩ := Prod.mk.inj hsame
        rw [tracked_addNode, SortedMap.contains_insert]
        exact .inr hnode
      · rwa [tracked_addNode_of_ne c w n fetchTime node hsame]

end Tracked

section Track

theorem track_fst (node : String) :
    (c.track w node n fetchTime).1 = (c.tracked w n).contains node := by
  rw [track]
  split
  · rename_i held
    exact held.symm
  · rename_i new
    exact (Bool.eq_false_iff.2 new).symm

theorem records_track (node : String) : (c.track w node n fetchTime).2.records = c.records := by
  rw [track]
  split <;> rfl

theorem contains_tracked_track (node other : String) :
    ((c.track w node n fetchTime).2.tracked w n).contains other = true ↔
      other = node ∨ (c.tracked w n).contains other = true := by
  rw [track]
  split
  · rename_i held
    exact ⟨.inr, fun h => h.elim (fun heq => heq ▸ held) id⟩
  · rw [tracked_addNode, SortedMap.contains_insert]

theorem isTracked_track (node other : String) :
    (c.track w node n fetchTime).2.isTracked other = true ↔
      other = node ∨ c.isTracked other = true := by
  rw [track]
  split
  · rename_i held
    exact ⟨.inr, fun h => h.elim (fun heq => heq ▸ c.isTracked_iff.2 ⟨w, n, held⟩) id⟩
  · exact isTracked_addNode ..

end Track

section Save

variable {v : Validated} {node : String}

theorem save_of_held (identified : v.node = some node)
    (held : (c.tracked w n).contains node = true) :
    c.save v w n fetchTime = (.alreadyTracked, c) := by
  rw [save, identified]
  exact if_pos held

theorem save_fst_of_new (identified : v.node = some node)
    (new : (c.tracked w n).contains node = false) : (c.save v w n fetchTime).1 = .saved := by
  rw [save, identified]
  dsimp only
  rw [if_neg (by rw [new]; exact Bool.false_ne_true)]

theorem save_eq_saved (identified : v.node = some node)
    (h : (c.save v w n fetchTime).1 = .saved) : (c.tracked w n).contains node = false := by
  rw [save, identified] at h
  dsimp only at h
  split at h
  · cases h
  · rename_i new
    exact Bool.eq_false_iff.2 new

theorem contains_tracked_save (identified : v.node = some node) (other : String) :
    ((c.save v w n fetchTime).2.tracked w n).contains other = true ↔
      other = node ∨ (c.tracked w n).contains other = true := by
  rw [save, identified]
  dsimp only
  split
  · rename_i held
    exact ⟨.inr, fun h => h.elim (fun heq => heq ▸ held) id⟩
  · have hadded : (c.addNode w n fetchTime node).tracked w n = (c.tracked w n).insert node () :=
      tracked_addNode ..
    rw [← SortedMap.contains_insert, ← hadded]
    exact Iff.rfl

theorem find?_records_save_of_ne {other : String} (h : v.node ≠ some other) :
    (c.save v w n fetchTime).2.records.find? other = c.records.find? other := by
  rw [save]
  cases identified : v.node with
  | none => rfl
  | some node =>
    dsimp only
    split
    · rfl
    · exact SortedMap.find?_insert_of_ne _ _ fun heq => h (by rw [identified, heq])

theorem contains_records_save {other : String} (h : c.records.contains other = true) :
    (c.save v w n fetchTime).2.records.contains other = true := by
  by_cases identified : v.node = some other
  · rw [save, identified]
    dsimp only
    split
    · exact h
    · exact (SortedMap.contains_insert ..).2 (.inl rfl)
  · rw [SortedMap.contains, find?_records_save_of_ne _ _ _ _ identified]
    exact h

theorem find?_records_save_self (identified : v.node = some node)
    (new : (c.tracked w n).contains node = false) :
    (c.save v w n fetchTime).2.records.find? node = some (recordOf v) := by
  rw [save, identified]
  dsimp only
  rw [if_neg (by rw [new]; exact Bool.false_ne_true)]
  exact SortedMap.find?_insert_self ..

end Save

section Delete

theorem contains_tracked_deleteBatch_iff {other : Workload} {m : Nat} {node : String} :
    ((c.deleteBatch w n).tracked other m).contains node = true ↔
      (other, m) ≠ (w, n) ∧ (c.tracked other m).contains node = true := by
  by_cases hsame : (other, m) = (w, n)
  · obtain ⟨rfl, rfl⟩ := Prod.mk.inj hsame
    rw [tracked_deleteBatch]
    exact iff_of_false Bool.false_ne_true fun h => h.1 rfl
  · rw [tracked_congr other m (batch?_deleteBatch_of_ne c w n hsame), and_iff_right hsame]

theorem isTracked_of_deleteBatch {node : String} (h : (c.deleteBatch w n).isTracked node = true) :
    c.isTracked node = true := by
  rw [isTracked_iff] at h ⊢
  obtain ⟨w', m, hnode⟩ := h
  exact ⟨w', m, ((c.contains_tracked_deleteBatch_iff w n).1 hnode).2⟩

/-- A batch is deleted with the records that no other batch keeps. -/
theorem find?_records_deleteBatch (node : String) :
    (c.deleteBatch w n).records.find? node =
      (c.records.find? node).filter fun _ => (c.deleteBatch w n).isTracked node := by
  have hrecords : (c.withoutBatch w n).records = c.records := by
    unfold withoutBatch
    split
    · rfl
    · dsimp only
      split <;> rfl
  rw [deleteBatch, prune]
  dsimp only
  rw [SortedMap.find?_filter, hrecords]
  rfl

end Delete

section Phantoms

theorem isPhantom_iff {node : String} :
    c.isPhantom node = true ↔ c.isTracked node = true ∧ c.records.contains node = false := by
  rw [isPhantom, Bool.and_eq_true, Bool.not_eq_true']

theorem isPhantom_of_deleteBatch {node : String}
    (h : (c.deleteBatch w n).isPhantom node = true) : c.isPhantom node = true := by
  rw [isPhantom_iff] at h ⊢
  obtain ⟨htracked, hnone⟩ := h
  refine ⟨c.isTracked_of_deleteBatch w n htracked, ?_⟩
  rw [SortedMap.contains, find?_records_deleteBatch, htracked] at hnone
  rw [SortedMap.contains, ← hnone]
  cases c.records.find? node <;> rfl

theorem isPhantom_track_iff (node other : String) :
    (c.track w node n fetchTime).2.isPhantom other = true ↔
      c.isPhantom other = true ∨ other = node ∧ c.records.contains node = false := by
  rw [isPhantom_iff, isPhantom_iff, isTracked_track, records_track]
  constructor
  · rintro ⟨rfl | htracked, hnone⟩
    · exact .inr ⟨rfl, hnone⟩
    · exact .inl ⟨htracked, hnone⟩
  · rintro (⟨htracked, hnone⟩ | ⟨rfl, hnone⟩)
    · exact ⟨.inr htracked, hnone⟩
    · exact ⟨.inl rfl, hnone⟩

/-- Saving adds a node together with its record. -/
theorem isPhantom_of_save {v : Validated} {node : String}
    (h : (c.save v w n fetchTime).2.isPhantom node = true) : c.isPhantom node = true := by
  rw [save] at h
  cases identified : v.node with
  | none => rwa [identified] at h
  | some other =>
    rw [identified] at h
    dsimp only at h
    split at h
    · exact h
    · rw [isPhantom_iff] at h ⊢
      obtain ⟨htracked, hnone⟩ := h
      have hne : node ≠ other := by
        rintro rfl
        have hsome : ((c.addNode w n fetchTime node).records.insert node (recordOf v)).contains
            node = true := (SortedMap.contains_insert ..).2 (.inl rfl)
        exact Bool.false_ne_true (hnone.symm.trans hsome)
      have hadded := (c.isTracked_addNode w n fetchTime other node).1 htracked
      refine ⟨hadded.resolve_left hne, ?_⟩
      rw [SortedMap.contains, SortedMap.find?_insert_of_ne _ _ hne] at hnone
      exact hnone

end Phantoms

section Fresh

variable {now since : Instant}

theorem contains_freshNodes_iff {node : String} :
    (c.freshNodes now since w).contains node = true ↔
      c.isLive now node = true ∧ ∃ n entry, c.batch? w n = some entry ∧ since ≤ entry.fetchTime ∧
        entry.nodes.contains node = true := by
  rw [freshNodes, SortedMap.contains_ofList, List.map_map]
  have hid : (Prod.fst ∘ fun node : String => (node, ())) = id := rfl
  rw [hid, List.map_id, List.mem_filter, List.mem_flatMap]
  simp only [List.mem_filter, SortedMap.mem_values_iff, SortedMap.mem_keys_iff, decide_eq_true_eq,
    batch?]
  constructor
  · rintro ⟨⟨entry, ⟨⟨n, hn⟩, hsince⟩, hnode⟩, hlive⟩
    exact ⟨hlive, n, entry, hn, hsince, hnode⟩
  · rintro ⟨hlive, n, entry, hn, hsince, hnode⟩
    exact ⟨⟨entry, ⟨⟨n, hn⟩, hsince⟩, hnode⟩, hlive⟩

end Fresh

end NodeAttestation.Cache
