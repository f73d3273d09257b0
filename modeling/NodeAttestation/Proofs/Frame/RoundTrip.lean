import NodeAttestation.Proofs.Frame.Truncation
import NodeAttestation.Proofs.Wire.Messages

/-! # Messages that are sent as frames are received in order, however the frames are cut up. -/

namespace NodeAttestation.Frame

theorem ofBigEndian_take_encode {payload : Bytes} (h : payload.length < 2 ^ 32) :
    Bytes.ofBigEndian ((encode payload).take 4) = payload.length := by
  have hfour : (Bytes.bigEndian 4 payload.length).length = 4 := by
    rw [Bytes.bigEndian, List.length_reverse, Bytes.length_littleEndian]
  rw [encode, List.take_left' hfour, Bytes.ofBigEndian, Bytes.bigEndian, List.reverse_reverse,
    Bytes.ofLittleEndian_littleEndian]
  exact Nat.mod_eq_of_lt h

theorem drop_encode (payload : Bytes) : (encode payload).drop 4 = payload := by
  have hfour : (Bytes.bigEndian 4 payload.length).length = 4 := by
    rw [Bytes.bigEndian, List.length_reverse, Bytes.length_littleEndian]
  rw [encode, List.drop_left' hfour]

/-- Messages of any type are received as they were sent, but for the signs of zeros, and the body
ends without a fault. The first four bytes of each frame count those that follow them. What the
messages are encoded as is one of the ways of writing them. -/
theorem items_eq_received (type : MessageType) {maxLength : Nat}
    {sent : List (type.Value × Bytes)} {chunks : List Bytes}
    (written : ∀ m ∈ sent, type.Writes m.1 m.2) (fits : ∀ m ∈ sent, Fits maxLength m.2)
    (hchunks : chunks.flatten = encodeAll (sent.map (·.2))) :
    items type.decode maxLength ⟨chunks, none⟩ =
        sent.map (fun m => .message (type.received m.1)) ∧
      (∀ m ∈ sent,
        Bytes.ofBigEndian ((encode m.2).take 4) = ((encode m.2).drop 4).length) ∧
      ∀ m, type.Writes m (type.encode m) := by
  refine ⟨?_, fun m hm => ?_, type.writes_encode⟩
  · have hfits : ∀ payload ∈ sent.map (·.2), Fits maxLength payload := by
      intro payload hpayload
      obtain ⟨m, hm, rfl⟩ := List.mem_map.1 hpayload
      exact fits m hm
    rw [← List.append_nil (encodeAll _)] at hchunks
    rw [items_of_flatten type.decode hfits hchunks rfl none, List.map_map]
    refine (List.append_nil _).trans (List.map_congr_left fun m hm => ?_)
    have hshort : m.2.length < 2 ^ 64 := Nat.lt_trans (fits m hm).2 (by decide)
    rw [Function.comp_apply, Function.comp_apply,
      MessageType.decode_eq_received (written m hm) hshort]
    rfl
  · rw [ofBigEndian_take_encode (fits m hm).2, drop_encode]

section Reversed

/-- A limit with a negative zero, a double that is no number, an empty text and two tags. -/
def taggedLimit : PushedLimit where
  bundle := none
  feature := some ""
  workloadType := none
  workloadTags := .ofList [("a", "1"), ("b", "")]
  requestCount := 3
  windowSeconds := .ofMagnitude true 0
  lifetimeSeconds := .nan
  jitter := .zero

def reversedTags : Bytes :=
  Wire.delimited 1 (taggedLimit.encodeWith [("b", ""), ("a", "1")])

/-- In chunks of five bytes after an empty one: a list with one limit, whose tags are written in
descending order, and an empty list. -/
def reversedBody : Body := ⟨[] :: Body.cut 5 (encode reversedTags ++ encode []), none⟩

theorem items_eq_received_of_reversedTags :
    MessageType.limits.Writes [taggedLimit] reversedTags ∧ Fits 28 reversedTags ∧
      items PushedLimit.decodeList 28 reversedBody =
        [.message [{ taggedLimit with windowSeconds := .zero }], .message []] := by
  have tags : [("b", ""), ("a", "1")].Perm taggedLimit.workloadTags.entries := .swap ..
  have first : MessageType.limits.Writes [taggedLimit] reversedTags := by
    have hlist := PushedLimit.WritesList.cons ⟨_, tags, rfl⟩ .nil
    rwa [List.append_nil] at hlist
  have hfits : Fits 28 reversedTags := ⟨by decide, by decide⟩
  have sent : ∀ m ∈ [([taggedLimit], reversedTags), ([], [])],
      MessageType.limits.Writes m.1 m.2 ∧ Fits 28 m.2 := by
    intro m hm
    simp only [List.mem_cons, List.not_mem_nil, or_false] at hm
    rcases hm with rfl | rfl
    · exact ⟨first, hfits⟩
    · exact ⟨PushedLimit.WritesList.nil, Nat.zero_le _, by decide⟩
  have hchunks : reversedBody.chunks.flatten =
      encodeAll ([([taggedLimit], reversedTags), ([], [])].map (·.2)) := by
    decide
  have received := items_eq_received .limits (fun m hm => (sent m hm).1)
    (fun m hm => (sent m hm).2) hchunks
  exact ⟨first, hfits, received.1⟩

end Reversed

end NodeAttestation.Frame
