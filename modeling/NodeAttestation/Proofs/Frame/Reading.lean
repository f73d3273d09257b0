import NodeAttestation.Frame

/-!
# Reading a body

Whatever its bytes, a body is a number of whole frames and a rest in which the reading stops: no
bytes at all, a frame that has begun, or a length beyond the limit. How the body is cut into
chunks does not matter.
-/

namespace NodeAttestation.Frame

variable {maxLength : Nat}

theorem feed_cons (state : State) (b : UInt8) (rest : Bytes) :
    feed maxLength state (b :: rest) =
      ((state.push maxLength b).1.toList ++ (feed maxLength (state.push maxLength b).2 rest).1,
        (feed maxLength (state.push maxLength b).2 rest).2) := rfl

theorem feed_append (state : State) (first second : Bytes) :
    feed maxLength state (first ++ second) =
      ((feed maxLength state first).1 ++ (feed maxLength (feed maxLength state first).2 second).1,
        (feed maxLength (feed maxLength state first).2 second).2) := by
  induction first generalizing state with
  | nil => simp [feed]
  | cons b first ih => simp [feed_cons, ih]

theorem feedChunks_eq_feed_flatten (state : State) (chunks : List Bytes) :
    feedChunks maxLength state chunks = feed maxLength state chunks.flatten := by
  induction chunks generalizing state with
  | nil => rfl
  | cons chunk chunks ih => simp [feedChunks, feed_append, ih]

def encodeAll (payloads : List Bytes) : Bytes := payloads.flatMap encode

theorem encodeAll_cons (payload : Bytes) (payloads : List Bytes) :
    encodeAll (payload :: payloads) = encode payload ++ encodeAll payloads := rfl

/-- The limit allows the payload and four bytes hold its length. -/
def Fits (maxLength : Nat) (payload : Bytes) : Prop :=
  payload.length ≤ maxLength ∧ payload.length < 2 ^ 32

/-- The bytes of a frame that end before it does. -/
inductive Begun (maxLength : Nat) : Bytes → Prop where
  | length (taken : Bytes) (hsome : taken ≠ []) (hshort : taken.length < 4) : Begun maxLength taken
  | payload (length : Nat) (taken : Bytes) (hlimit : length ≤ maxLength) (hfield : length < 2 ^ 32)
    (hshort : taken.length < length) : Begun maxLength (Bytes.bigEndian 4 length ++ taken)

/-- The bytes from a length beyond the limit on. -/
def Exceeds (maxLength : Nat) (bytes : Bytes) : Prop :=
  ∃ length more, maxLength < length ∧ length < 2 ^ 32 ∧ bytes = Bytes.bigEndian 4 length ++ more

section Length

theorem feed_length_short {taken : Bytes} (bytes : Bytes)
    (h : taken.length + bytes.length < 4) :
    feed maxLength (.length taken) bytes = ([], .length (bytes.reverse ++ taken)) := by
  induction bytes generalizing taken with
  | nil => rfl
  | cons b bytes ih =>
    rw [List.length_cons] at h
    have hpush : State.push maxLength (.length taken) b = (none, .length (b :: taken)) := by
      rw [State.push, if_pos (by omega)]
    rw [feed_cons, hpush, ih (by rw [List.length_cons]; omega)]
    simp

/-- What the fourth byte of a length field leads to. -/
def State.ofLength (maxLength length : Nat) : Option Bytes × State :=
  if maxLength < length then (none, .oversized)
  else if length = 0 then (some [], .start)
  else (none, .payload length [])

theorem feed_bigEndian {length : Nat} (rest : Bytes) (h : length < 2 ^ 32) :
    feed maxLength .start (Bytes.bigEndian 4 length ++ rest) =
      ((State.ofLength maxLength length).1.toList ++
          (feed maxLength (State.ofLength maxLength length).2 rest).1,
        (feed maxLength (State.ofLength maxLength length).2 rest).2) := by
  have hlength : (Bytes.littleEndian 4 length).length = 4 := Bytes.length_littleEndian ..
  obtain ⟨d, c, b, a, hbytes⟩ : ∃ d c b a, Bytes.littleEndian 4 length = [d, c, b, a] :=
    ⟨_, _, _, _, rfl⟩
  have hread : Bytes.ofLittleEndian [d, c, b, a] = length := by
    rw [← hbytes, Bytes.ofLittleEndian_littleEndian]
    exact Nat.mod_eq_of_lt h
  have hfirst : feed maxLength .start [a, b, c] = ([], .length [c, b, a]) :=
    feed_length_short [a, b, c] (by simp)
  have hlast : State.push maxLength (.length [c, b, a]) d = State.ofLength maxLength length := by
    rw [State.push, if_neg (by simp), State.ofLength, hread]
  have hsplit : Bytes.bigEndian 4 length ++ rest = [a, b, c] ++ d :: rest := by
    rw [Bytes.bigEndian, hbytes]
    rfl
  rw [hsplit, feed_append, hfirst, feed_cons, hlast]
  simp

theorem feed_bigEndian_payload {length : Nat} (rest : Bytes) (h : length < 2 ^ 32)
    (hpos : 0 < length) (hlimit : length ≤ maxLength) :
    feed maxLength .start (Bytes.bigEndian 4 length ++ rest) =
      feed maxLength (.payload length []) rest := by
  rw [feed_bigEndian rest h, State.ofLength, if_neg (by omega), if_neg (by omega)]
  simp

end Length

section Payload

theorem feed_payload_short {missing : Nat} {taken : Bytes} (bytes : Bytes)
    (h : bytes.length < missing) :
    feed maxLength (.payload missing taken) bytes =
      ([], .payload (missing - bytes.length) (bytes.reverse ++ taken)) := by
  induction bytes generalizing missing taken with
  | nil => rfl
  | cons b bytes ih =>
    rw [List.length_cons] at h
    have hpush : State.push maxLength (.payload missing taken) b =
        (none, .payload (missing - 1) (b :: taken)) := by
      rw [State.push, if_neg (by omega)]
    rw [feed_cons, hpush, ih (by omega), List.length_cons, Nat.sub_sub, Nat.add_comm 1]
    simp

theorem feed_payload (taken payload rest : Bytes) (hpos : payload ≠ []) :
    feed maxLength (.payload payload.length taken) (payload ++ rest) =
      ((taken.reverse ++ payload) :: (feed maxLength .start rest).1,
        (feed maxLength .start rest).2) := by
  obtain ⟨most, last, rfl⟩ : ∃ most last, payload = most ++ [last] :=
    ⟨_, _, (List.dropLast_concat_getLast hpos).symm⟩
  have hmost : most.length < (most ++ [last]).length := by simp
  have hone : (most ++ [last]).length - most.length = 1 := by simp
  have hpush : State.push maxLength (.payload 1 (most.reverse ++ taken)) last =
      (some (taken.reverse ++ (most ++ [last])), .start) := by
    rw [State.push, if_pos (Nat.le_refl 1)]
    simp
  rw [List.append_assoc, feed_append, feed_payload_short most hmost, hone]
  rw [List.singleton_append, feed_cons, hpush]
  simp

theorem feed_oversized (bytes : Bytes) : feed maxLength .oversized bytes = ([], .oversized) := by
  induction bytes with
  | nil => rfl
  | cons b bytes ih => simp [feed_cons, State.push, ih]

end Payload

theorem feed_encode {payload : Bytes} (rest : Bytes) (h : Fits maxLength payload) :
    feed maxLength .start (encode payload ++ rest) =
      (payload :: (feed maxLength .start rest).1, (feed maxLength .start rest).2) := by
  rw [encode, List.append_assoc]
  by_cases hempty : payload = []
  · rw [feed_bigEndian _ h.2, State.ofLength, if_neg (by have := h.1; omega)]
    simp [hempty]
  · have hpos : 0 < payload.length := List.length_pos_iff.2 hempty
    rw [feed_bigEndian_payload _ h.2 hpos h.1, feed_payload [] payload rest hempty]
    rfl

theorem feed_encodeAll {payloads : List Bytes} (rest : Bytes)
    (h : ∀ payload ∈ payloads, Fits maxLength payload) :
    feed maxLength .start (encodeAll payloads ++ rest) =
      (payloads ++ (feed maxLength .start rest).1, (feed maxLength .start rest).2) := by
  induction payloads with
  | nil => rfl
  | cons payload payloads ih =>
    have hrest := ih fun other hother => h other (List.mem_cons_of_mem _ hother)
    rw [encodeAll_cons, List.append_assoc, feed_encode _ (h payload (by simp)), hrest]
    rfl

/-! ### Every body is whole frames and a rest -/

theorem exists_bigEndian_of_length {bytes : Bytes} (h : 4 ≤ bytes.length) :
    ∃ length rest, length < 2 ^ 32 ∧ bytes = Bytes.bigEndian 4 length ++ rest := by
  refine ⟨Bytes.ofBigEndian (bytes.take 4), bytes.drop 4, ?_, ?_⟩
  · have := Bytes.ofLittleEndian_lt (bytes.take 4).reverse
    rw [List.length_reverse, List.length_take, Nat.min_eq_left h] at this
    exact this
  · have hfour : (bytes.take 4).reverse.length = 4 := by
      rw [List.length_reverse, List.length_take, Nat.min_eq_left h]
    have := Bytes.littleEndian_ofLittleEndian (bytes.take 4).reverse
    rw [hfour] at this
    rw [Bytes.bigEndian, Bytes.ofBigEndian, this, List.reverse_reverse, List.take_append_drop]

theorem exists_encodeAll (maxLength : Nat) (bytes : Bytes) :
    ∃ payloads rest, (∀ payload ∈ payloads, Fits maxLength payload) ∧
      bytes = encodeAll payloads ++ rest ∧
      (rest = [] ∨ Begun maxLength rest ∨ Exceeds maxLength rest) := by
  induction hsize : bytes.length using Nat.strongRecOn generalizing bytes with
  | ind size ih =>
    by_cases hshort : bytes.length < 4
    · by_cases hempty : bytes = []
      · exact ⟨[], bytes, by simp, rfl, .inl hempty⟩
      · exact ⟨[], bytes, by simp, rfl, .inr (.inl (.length bytes hempty hshort))⟩
    obtain ⟨length, more, hfield, hbytes⟩ := exists_bigEndian_of_length (Nat.not_lt.1 hshort)
    by_cases hlimit : maxLength < length
    · exact ⟨[], bytes, by simp, rfl, .inr (.inr ⟨length, more, hlimit, hfield, hbytes⟩)⟩
    by_cases hmore : more.length < length
    · refine ⟨[], bytes, by simp, rfl, .inr (.inl ?_)⟩
      rw [hbytes]
      exact .payload length more (Nat.not_lt.1 hlimit) hfield hmore
    -- A whole frame comes first; what follows it is shorter.
    have htake : (more.take length).length = length := by
      rw [List.length_take, Nat.min_eq_left (Nat.not_lt.1 hmore)]
    have hfits : Fits maxLength (more.take length) := by
      rw [Fits, htake]
      exact ⟨Nat.not_lt.1 hlimit, hfield⟩
    have hframe : bytes = encode (more.take length) ++ more.drop length := by
      rw [encode, htake, List.append_assoc, List.take_append_drop, hbytes]
    have hsmaller : (more.drop length).length < size := by
      rw [← hsize, hbytes, List.length_append, Bytes.bigEndian, List.length_reverse,
        Bytes.length_littleEndian, List.length_drop]
      omega
    obtain ⟨payloads, rest, hpayloads, hdrop, hrest⟩ := ih _ hsmaller (more.drop length) rfl
    refine ⟨more.take length :: payloads, rest, ?_, ?_, hrest⟩
    · intro payload hpayload
      rcases List.mem_cons.1 hpayload with rfl | hpayload
      · exact hfits
      · exact hpayloads payload hpayload
    · rw [hframe, hdrop, encodeAll_cons, List.append_assoc]

end NodeAttestation.Frame
