import NodeAttestation.Proofs.Frame.Reading

/-!
# Cutting a body into chunks

A reader that works on whole chunks keeps the bytes it cannot use yet and, once it has taken a
length off them, how long a payload it awaits. It finds what the reading byte by byte finds. So two
ways of cutting a body lead to the same items, wherever they cut it and whatever its bytes are.
-/

namespace NodeAttestation.Frame

structure Reader where
  awaited : Option Nat
  held : Bytes
deriving DecidableEq

namespace Reader

def start : Reader := ⟨none, []⟩

def receive (r : Reader) (chunk : Bytes) : Reader := { r with held := r.held ++ chunk }

inductive Found where
  | payload (payload : Bytes) (rest : Reader)
  | nothing (rest : Reader)
  | oversized

def takePayload (length : Nat) (held : Bytes) : Found :=
  if held.length < length then .nothing ⟨some length, held⟩
  else .payload (held.take length) ⟨none, held.drop length⟩

/-- Looks for one frame. A length is taken off the bytes as soon as its four bytes are there. -/
def find (maxLength : Nat) (r : Reader) : Found :=
  match r.awaited with
  | some length => takePayload length r.held
  | none =>
    if r.held.length < 4 then .nothing r
    else
      let length := Bytes.ofBigEndian (r.held.take 4)
      if maxLength < length then .oversized else takePayload length (r.held.drop 4)

def size (r : Reader) : Nat := 2 * r.held.length + r.awaited.toList.length

variable {maxLength : Nat} {r rest : Reader} {payload : Bytes}

theorem takePayload_eq_payload {length : Nat} {held : Bytes}
    (h : takePayload length held = .payload payload rest) :
    length ≤ held.length ∧ payload = held.take length ∧ rest = ⟨none, held.drop length⟩ := by
  rw [takePayload] at h
  split at h
  · cases h
  · rename_i hlength
    cases h
    exact ⟨Nat.not_lt.1 hlength, rfl, rfl⟩

theorem size_lt_of_find (h : r.find maxLength = .payload payload rest) : rest.size < r.size := by
  obtain ⟨awaited, held⟩ := r
  cases awaited with
  | some length =>
    obtain ⟨-, -, rfl⟩ := takePayload_eq_payload h
    simp only [size, List.length_drop, Option.toList_none, Option.toList_some, List.length_nil,
      List.length_singleton]
    omega
  | none =>
    simp only [find] at h
    split at h
    · cases h
    · rename_i hfour
      split at h
      · cases h
      · obtain ⟨-, -, rfl⟩ := takePayload_eq_payload h
        simp only [size, List.length_drop, Option.toList_none, List.length_nil]
        omega

/-- The payloads of all frames that are there. No reader is left of one that has met a length
beyond the limit. -/
def drain (maxLength : Nat) (r : Reader) : List Bytes × Option Reader :=
  match _ : r.find maxLength with
  | .payload payload rest =>
    let (payloads, last) := drain maxLength rest
    (payload :: payloads, last)
  | .nothing rest => ([], some rest)
  | .oversized => ([], none)
termination_by r.size
decreasing_by exact size_lt_of_find ‹_›

def readChunks (maxLength : Nat) : Option Reader → List Bytes → List Bytes × Option Reader
  | some r, chunk :: chunks =>
    let (payloads, next) := (r.receive chunk).drain maxLength
    let (more, last) := readChunks maxLength next chunks
    (payloads ++ more, last)
  | last, _ => ([], last)

def fault? (failure : Option String) : Option Reader → Option Fault
  | none => some .oversized
  | some r =>
    match failure with
    | some reason => some (.body reason)
    | none => if r.held.isEmpty then none else some .truncated

def items {α : Type} (decode : Bytes → Except Wire.Fault α) (maxLength : Nat) (body : Body) :
    List (Item α) :=
  let (payloads, last) := readChunks maxLength (some start) body.chunks
  payloads.map (.ofDecoded ∘ decode) ++ ((fault? body.failure last).map Item.broken).toList

/-- Where the reading stands before the bytes that are held. -/
def base (r : Reader) : State :=
  match r.awaited with
  | none => .start
  | some length => .payload length []

/-- Where the reading stands after the bytes that are held, which are too few for a frame. -/
def state : Option Reader → State
  | none => .oversized
  | some r =>
    match r.awaited with
    | none => .length r.held.reverse
    | some length => .payload (length - r.held.length) r.held.reverse

/-- A reader that needs more bytes. It does not await a payload without bytes. -/
def Waits (r : Reader) : Prop :=
  match r.awaited with
  | none => r.held.length < 4
  | some length => r.held.length < length

section Drain

theorem drain_of_payload (h : r.find maxLength = .payload payload rest) :
    r.drain maxLength = (payload :: (rest.drain maxLength).1, (rest.drain maxLength).2) := by
  rw [drain]
  split
  · rename_i other last hfound
    cases h.symm.trans hfound
    rfl
  · rename_i hfound
    cases h.symm.trans hfound
  · rename_i hfound
    cases h.symm.trans hfound

theorem drain_of_nothing (h : r.find maxLength = .nothing rest) :
    r.drain maxLength = ([], some rest) := by
  rw [drain]
  split
  · rename_i hfound
    cases h.symm.trans hfound
  · rename_i hfound
    cases h.symm.trans hfound
    rfl
  · rename_i hfound
    cases h.symm.trans hfound

theorem drain_of_oversized (h : r.find maxLength = .oversized) :
    r.drain maxLength = ([], none) := by
  rw [drain]
  split
  · rename_i hfound
    cases h.symm.trans hfound
  · rename_i hfound
    cases h.symm.trans hfound
  · rfl

theorem Waits.feed_base (waits : r.Waits) :
    feed maxLength r.base r.held = ([], state (some r)) := by
  obtain ⟨awaited, held⟩ := r
  cases awaited with
  | none =>
    have hshort : ([] : Bytes).length + held.length < 4 := by simpa [Waits] using waits
    rw [base, state, State.start, feed_length_short held hshort, List.append_nil]
  | some length =>
    rw [base, state, feed_payload_short held waits, List.append_nil]

end Drain

/-- Something is found just as the reading byte by byte comes upon it. -/
def Found.Agrees (maxLength : Nat) (fed : List Bytes × State) : Found → Prop
  | .payload payload rest =>
    rest.awaited = none ∧
      fed = (payload :: (feed maxLength .start rest.held).1, (feed maxLength .start rest.held).2)
  | .nothing rest => rest.Waits ∧ fed = ([], state (some rest))
  | .oversized => fed = ([], .oversized)

section Agreement

theorem takePayload_agrees {length : Nat} (held : Bytes) (hpos : 0 < length) :
    (takePayload length held).Agrees maxLength (feed maxLength (.payload length []) held) := by
  rw [takePayload]
  split
  · rename_i hshort
    have waits : Reader.Waits ⟨some length, held⟩ := hshort
    exact ⟨waits, waits.feed_base⟩
  · rename_i hlong
    have htake : (held.take length).length = length := by
      rw [List.length_take]
      omega
    have hsome : held.take length ≠ [] := by
      rw [← List.length_pos_iff, htake]
      exact hpos
    have hfeed : feed maxLength _ _ = _ :=
      feed_payload [] (held.take length) (held.drop length) hsome
    rw [htake, List.take_append_drop] at hfeed
    exact ⟨rfl, hfeed⟩

theorem find_agrees (r : Reader) (hsome : r.awaited ≠ some 0) :
    (r.find maxLength).Agrees maxLength (feed maxLength r.base r.held) := by
  obtain ⟨awaited, held⟩ := r
  cases awaited with
  | some length =>
    apply takePayload_agrees
    apply Nat.pos_of_ne_zero
    intro hzero
    exact hsome (by rw [hzero])
  | none =>
    simp only [find]
    split
    · rename_i hshort
      have waits : Reader.Waits ⟨none, held⟩ := hshort
      exact ⟨waits, waits.feed_base⟩
    · rename_i hfour
      obtain ⟨length, more, hfield, rfl⟩ := exists_bigEndian_of_length (Nat.not_lt.1 hfour)
      have htake : Bytes.ofBigEndian ((Bytes.bigEndian 4 length ++ more).take 4) = length := by
        rw [List.take_left' (by simp [Bytes.bigEndian, Bytes.length_littleEndian]),
          Bytes.ofBigEndian, Bytes.bigEndian, List.reverse_reverse,
          Bytes.ofLittleEndian_littleEndian]
        exact Nat.mod_eq_of_lt hfield
      have hdrop : (Bytes.bigEndian 4 length ++ more).drop 4 = more :=
        List.drop_left' (by simp [Bytes.bigEndian, Bytes.length_littleEndian])
      rw [htake, hdrop, base, feed_bigEndian more hfield, State.ofLength]
      split
      · exact feed_oversized more
      · by_cases hzero : length = 0
        · subst hzero
          exact ⟨rfl, by simp⟩
        · rw [if_neg hzero]
          exact takePayload_agrees more (Nat.pos_of_ne_zero hzero)

theorem drain_agrees (r : Reader) (hsome : r.awaited ≠ some 0) :
    feed maxLength r.base r.held = ((r.drain maxLength).1, state (r.drain maxLength).2) ∧
      ∀ last, (r.drain maxLength).2 = some last → last.Waits := by
  induction hsize : r.size using Nat.strongRecOn generalizing r with
  | ind size ih =>
    have agrees : (r.find maxLength).Agrees maxLength _ := find_agrees r hsome
    cases found : r.find maxLength with
    | payload payload rest =>
      rw [found] at agrees
      obtain ⟨hnone, hfeed⟩ := agrees
      have hrest : rest.base = .start := by rw [base, hnone]
      obtain ⟨hlast, waits⟩ :=
        ih rest.size (hsize ▸ size_lt_of_find found) rest (by simp [hnone]) rfl
      rw [hrest] at hlast
      rw [drain_of_payload found, hfeed, hlast]
      exact ⟨rfl, waits⟩
    | nothing rest =>
      rw [found] at agrees
      rw [drain_of_nothing found]
      refine ⟨agrees.2, ?_⟩
      intro last hlast
      cases hlast
      exact agrees.1
    | oversized =>
      rw [found] at agrees
      rw [drain_of_oversized found]
      exact ⟨agrees, fun last hlast => nomatch hlast⟩

/-- Between two chunks the bytes that are held stand for what the reading has taken so far. -/
theorem feed_state (waits : r.Waits) (chunk : Bytes) :
    feed maxLength (state (some r)) chunk = feed maxLength r.base (r.held ++ chunk) := by
  rw [feed_append, waits.feed_base]
  simp

theorem Waits.awaited_ne (waits : r.Waits) : r.awaited ≠ some 0 := by
  intro hzero
  unfold Waits at waits
  rw [hzero] at waits
  exact Nat.not_lt_zero _ waits

theorem readChunks_eq (last : Option Reader) (waits : ∀ r, last = some r → r.Waits)
    (chunks : List Bytes) :
    feedChunks maxLength (state last) chunks =
      ((readChunks maxLength last chunks).1, state (readChunks maxLength last chunks).2) := by
  induction chunks generalizing last with
  | nil =>
    cases last <;> rfl
  | cons chunk chunks ih =>
    cases last with
    | none =>
      rw [feedChunks_eq_feed_flatten]
      exact feed_oversized _
    | some r =>
      have hwaits := waits r rfl
      obtain ⟨hdrain, hlast⟩ : feed maxLength _ _ = _ ∧ _ :=
        drain_agrees (r.receive chunk) hwaits.awaited_ne
      have hfeed : feed maxLength (state (some r)) chunk = _ :=
        (feed_state hwaits chunk).trans hdrain
      rw [feedChunks, hfeed, readChunks]
      simp only [ih _ hlast]

theorem fault?_eq (failure : Option String) (last : Option Reader) :
    fault? failure last = (state last).fault? failure := by
  cases last with
  | none => rfl
  | some r =>
    obtain ⟨awaited, held⟩ := r
    cases awaited <;> cases failure <;> simp [fault?, state, State.fault?]

end Agreement

/-- A reader finds in the chunks of a body what the reading byte by byte finds in it. -/
theorem items_eq {α : Type} (decode : Bytes → Except Wire.Fault α) (maxLength : Nat)
    (body : Body) : items decode maxLength body = Frame.items decode maxLength body := by
  have hstart : feedChunks maxLength .start body.chunks = _ :=
    readChunks_eq (some start) (fun r hr => by cases hr; exact Nat.zero_lt_succ 3) body.chunks
  rw [items, Frame.items, payloads, hstart]
  simp only [fault?_eq]

end Reader

/-- How a body is cut into chunks does not matter, neither to the reading byte by byte nor to one
that looks for whole frames in the chunks. -/
theorem items_eq_of_flatten_eq {α : Type} (decode : Bytes → Except Wire.Fault α) (maxLength : Nat)
    {body other : Body} (bytes : body.chunks.flatten = other.chunks.flatten)
    (failure : body.failure = other.failure) :
    items decode maxLength body = items decode maxLength other ∧
      Reader.items decode maxLength body = Reader.items decode maxLength other ∧
      Reader.items decode maxLength body = items decode maxLength other := by
  have hsame : items decode maxLength body = items decode maxLength other := by
    rw [items, items, payloads, payloads, feedChunks_eq_feed_flatten, feedChunks_eq_feed_flatten,
      bytes, failure]
  rw [Reader.items_eq, Reader.items_eq]
  exact ⟨hsame, hsame, hsame⟩

section Cuts

def failing (chunks : List Bytes) : Body := ⟨chunks, some "connection reset"⟩

/-- An empty message, one that cannot be decoded and a length field that is cut off, in one chunk
and in many: within both lengths, before the payload and with empty chunks between them. -/
theorem items_eq_of_flatten_eq_of_cuts :
    (failing [[0, 0, 0, 0, 0, 0, 0, 1, 7, 0, 0, 0]]).chunks.flatten =
        (failing [[0, 0], [], [0, 0, 0], [0, 0, 1], [7, 0], [], [0, 0], []]).chunks.flatten ∧
      Frame.items Response.decode 8 (failing [[0, 0, 0, 0, 0, 0, 0, 1, 7, 0, 0, 0]]) =
        Reader.items Response.decode 8
          (failing [[0, 0], [], [0, 0, 0], [0, 0, 1], [7, 0], [], [0, 0], []]) ∧
      Frame.items Response.decode 8 (failing [[0, 0, 0, 0, 0, 0, 0, 1, 7, 0, 0, 0]]) =
        [.message .empty, .undecodable ⟨[], .unknownForm 7⟩, .broken (.body "connection reset")] := by
  have bytes : (failing [[0, 0], [], [0, 0, 0], [0, 0, 1], [7, 0], [], [0, 0], []]).chunks.flatten =
      (failing [[0, 0, 0, 0, 0, 0, 0, 1, 7, 0, 0, 0]]).chunks.flatten := by rfl
  obtain ⟨-, -, hitems⟩ := items_eq_of_flatten_eq Response.decode 8 bytes rfl
  exact ⟨bytes.symm, hitems.symm, by rfl⟩

end Cuts

end NodeAttestation.Frame
