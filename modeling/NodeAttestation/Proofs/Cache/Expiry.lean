import NodeAttestation.Proofs.Cache.Operations
import NodeAttestation.Proofs.Time.Elapsing

/-!
# Records that expire while their nodes are tracked

A batch goes on tracking a node when the record of the node has expired. Whether a batch tracks a
node is all that saving looks at, so that from then on the batch turns every new validation of the
node away and keeps the record that is of no use any more.
-/

namespace NodeAttestation.Cache

/-- A node is only tracked without being saved if it has a live record. -/
def Operation.IsFounded (c : Cache) (now : Instant) : Operation → Prop
  | .track _ node _ _ => c.isLive now node = true
  | _ => True

/-- What such operations can make of an empty cache while time passes. -/
inductive Grown : Instant → Cache → Prop
  | empty (now : Instant) : Grown now .empty
  | elapse {now later : Instant} {c : Cache} (grown : Grown now c) (passed : now ≤ later) :
      Grown later c
  | perform {now : Instant} {c : Cache} {operation : Operation} (grown : Grown now c)
      (founded : operation.IsFounded c now) : Grown now (c.perform operation)

/-- A batch tracks a node whose record has expired. -/
def HoldsExpired (c : Cache) (w : Workload) (n : Nat) (node : String) (now : Instant) : Prop :=
  (c.tracked w n).contains node = true ∧
    ∃ record, c.records.find? node = some record ∧ record.expiry ≤ now

section Grown

variable {c : Cache} {now : Instant} {node : String}

theorem isPhantom_perform {operation : Operation} (founded : operation.IsFounded c now)
    (h : (c.perform operation).isPhantom node = true) : c.isPhantom node = true := by
  cases operation with
  | track w known n fetchTime =>
    rcases (isPhantom_track_iff ..).1 h with hold | ⟨-, unrecorded⟩
    · exact hold
    · rw [contains_records_of_isLive c founded] at unrecorded
      cases unrecorded
  | save v w n fetchTime => exact isPhantom_of_save _ _ _ _ h
  | delete w n => exact isPhantom_of_deleteBatch _ _ _ h
  | clear => cases h

theorem Grown.isPhantom_eq_false (grown : Grown now c) (node : String) :
    c.isPhantom node = false := by
  induction grown with
  | empty => rfl
  | elapse _ _ ih => exact ih
  | perform _ founded ih =>
    rw [Bool.eq_false_iff]
    intro phantom
    rw [isPhantom_perform founded phantom] at ih
    cases ih

theorem Grown.exists_record (grown : Grown now c) {w : Workload} {n : Nat}
    (held : (c.tracked w n).contains node = true) :
    ∃ record, c.records.find? node = some record := by
  have recorded := grown.isPhantom_eq_false node
  rw [isPhantom, c.isTracked_iff.2 ⟨w, n, held⟩, Bool.true_and, Bool.not_eq_false'] at recorded
  exact Option.isSome_iff_exists.1 recorded

end Grown

section Save

variable {c : Cache} {now : Instant} {v : Validated} {node : String} {w : Workload} {n : Nat}

theorem isLive_iff_not_holdsExpired (held : (c.tracked w n).contains node = true)
    {record : NodeRecord} (recorded : c.records.find? node = some record) :
    c.isLive now node = true ↔ ¬c.HoldsExpired w n node now := by
  rw [isLive_iff, HoldsExpired, recorded]
  simp only [Option.some.injEq, exists_eq_left', held, true_and, Instant.not_le_iff]

/-- A validated attestation that has not expired is saved, and its node is live then, unless the
batch tracks the node already. In that case nothing changes: there is a record of the node, and the
node is live if and only if that record has not expired. -/
theorem isLive_save_iff (grown : Grown now c) (identified : v.node = some node)
    (unexpired : now < v.expiry) (w : Workload) (n : Nat) (fetchTime : Instant) :
    ((c.tracked w n).contains node = false ∧ (c.save v w n fetchTime).1 = .saved ∧
        (c.save v w n fetchTime).2.records.find? node = some (recordOf v) ∨
      (c.tracked w n).contains node = true ∧ c.save v w n fetchTime = (.alreadyTracked, c) ∧
        c.records.contains node = true) ∧
      ((c.save v w n fetchTime).2.isLive now node = true ↔ ¬c.HoldsExpired w n node now) := by
  cases held : (c.tracked w n).contains node with
  | false =>
    have recorded := find?_records_save_self c w n fetchTime identified held
    refine ⟨.inl ⟨rfl, save_fst_of_new c w n fetchTime identified held, recorded⟩, ?_⟩
    refine iff_of_true ((isLive_iff _).2 ⟨_, recorded, unexpired⟩) fun expired => ?_
    rw [expired.1] at held
    cases held
  | true =>
    obtain ⟨record, recorded⟩ := grown.exists_record held
    have same := save_of_held c w n fetchTime identified held
    refine ⟨.inr ⟨rfl, same, Option.isSome_iff_exists.2 ⟨record, recorded⟩⟩, ?_⟩
    rw [same]
    exact isLive_iff_not_holdsExpired held recorded

end Save

section Renewed

def hour (n : Nat) (h : n ≤ 24 := by decide) : Instant :=
  { Instant.epoch with
    second := 3600 * n
    earliest_le := by omega
    le_latest := by omega }

def validUntil (expiry : Instant) : Validated := ⟨.empty, some "n", [], expiry, none⟩

def inference : Workload := ⟨"inference", .empty⟩

/-- One node, saved for batch 0 at midnight for one hour. -/
def hourly : Cache := empty.perform (.save (validUntil (hour 1)) inference 0 (hour 0))

theorem grown_hourly : Grown (hour 2) hourly :=
  .elapse (.perform (.empty (hour 0)) trivial) (.inl (by decide))

/-- Another batch saves the node anew. -/
theorem isLive_save_iff_of_other_batch :
    Grown (hour 2) hourly ∧ hour 2 < (validUntil (hour 3)).expiry ∧
      (hourly.save (validUntil (hour 3)) inference 1 (hour 2)).1 = .saved ∧
      (hourly.save (validUntil (hour 3)) inference 1 (hour 2)).2.isLive (hour 2) "n" = true := by
  have unexpired : hour 2 < (validUntil (hour 3)).expiry := .inl (by decide)
  have untracked : (hourly.tracked inference 1).contains "n" = false := by rfl
  obtain ⟨outcome, live⟩ := isLive_save_iff grown_hourly rfl unexpired inference 1 (hour 2)
  refine ⟨grown_hourly, unexpired, by rfl, live.2 fun expired => ?_⟩
  rw [expired.1] at untracked
  cases untracked

/-- The batch that the node was saved for does not, though it has been validated for one hour
more. -/
theorem not_isLive_save_of_expired :
    Grown (hour 2) hourly ∧ hour 2 < (validUntil (hour 3)).expiry ∧
      hourly.save (validUntil (hour 3)) inference 0 (hour 2) = (.alreadyTracked, hourly) ∧
      (hourly.save (validUntil (hour 3)) inference 0 (hour 2)).2.isLive (hour 2) "n" = false :=
  ⟨grown_hourly, .inl (by decide), by rfl, by rfl⟩

end Renewed

end NodeAttestation.Cache
