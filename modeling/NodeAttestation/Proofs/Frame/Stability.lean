import NodeAttestation.Proofs.Frame.Truncation

/-!
# What the rest of a body can change

The messages of a body are acted upon while the rest of it is still to come. That rest adds items
and takes none back, except for a fault that only the end of the bytes has brought about. After a
length beyond the limit the rest does not matter any more.
-/

namespace NodeAttestation.Frame

variable {maxLength : Nat}

section Count

/-- The bytes that have been taken for a frame which is not complete, up to its length field. -/
def State.held : State → Nat
  | .length taken => taken.length
  | .payload _ _ => 4
  | .oversized => 0

theorem held_push_le (maxLength : Nat) (state : State) (b : UInt8) :
    4 * (state.push maxLength b).1.toList.length + (state.push maxLength b).2.held ≤
      state.held + 1 := by
  cases state with
  | length taken =>
    rw [State.push]
    split
    · simp [State.held]
    · rename_i hthree
      dsimp only
      split
      · simp [State.held]
      · split
        · simp only [State.held, State.start, Option.toList_some, List.length_singleton,
            List.length_nil]
          omega
        · simp only [State.held, Option.toList_none, List.length_nil]
          omega
  | payload missing taken =>
    rw [State.push]
    split <;> simp [State.held, State.start]
  | oversized => simp [State.push, State.held]

/-- A frame takes at least the four bytes of its length. -/
theorem held_feed_le (maxLength : Nat) (state : State) (bytes : Bytes) :
    4 * (feed maxLength state bytes).1.length + (feed maxLength state bytes).2.held ≤
      state.held + bytes.length := by
  induction bytes generalizing state with
  | nil => simp [feed]
  | cons b bytes ih =>
    have hpush := held_push_le maxLength state b
    have hrest := ih (state.push maxLength b).2
    rw [feed_cons]
    dsimp only
    rw [List.length_append, List.length_cons]
    omega

theorem length_feed_start_le (maxLength : Nat) (bytes : Bytes) :
    4 * (feed maxLength .start bytes).1.length ≤ bytes.length := by
  have hheld := held_feed_le maxLength .start bytes
  have hstart : State.held .start = 0 := rfl
  omega

end Count

/-- Whether only the end of the bytes has brought a fault about. -/
def Fault.isOfEnd : Fault → Bool
  | .oversized => false
  | .truncated | .body _ => true

def Item.isOfEnd {α : Type} : Item α → Bool
  | .message _ | .undecodable _ => false
  | .broken fault => fault.isOfEnd

/-- The fault that the reading has come to already, whatever follows. -/
def State.settledFault? : State → Option Fault
  | .length _ | .payload _ _ => none
  | .oversized => some .oversized

section Items

variable {α : Type} (decode : Bytes → Except Wire.Fault α)

/-- The items of a body that its end has no part in. -/
def settled (maxLength : Nat) (body : Body) : List (Item α) :=
  (items decode maxLength body).filter fun item => !item.isOfEnd

theorem items_eq_feed (maxLength : Nat) (body : Body) :
    items decode maxLength body =
      (feed maxLength .start body.chunks.flatten).1.map (Item.ofDecoded ∘ decode) ++
        (((feed maxLength .start body.chunks.flatten).2.fault? body.failure).map
          Item.broken).toList := by
  rw [items, payloads, feedChunks_eq_feed_flatten]

theorem isOfEnd_ofDecoded (result : Except Wire.Fault α) :
    (Item.ofDecoded result).isOfEnd = false := by
  cases result <;> rfl

theorem filter_fault? (state : State) (failure : Option String) :
    (((state.fault? failure).map Item.broken).toList : List (Item α)).filter
        (fun item => !item.isOfEnd) =
      (state.settledFault?.map Item.broken).toList := by
  cases state with
  | oversized => rfl
  | length taken | payload missing taken =>
    cases failure with
    | some reason => rfl
    | none => cases taken <;> rfl

theorem settled_eq (maxLength : Nat) (body : Body) :
    settled decode maxLength body =
      (feed maxLength .start body.chunks.flatten).1.map (Item.ofDecoded ∘ decode) ++
        ((feed maxLength .start body.chunks.flatten).2.settledFault?.map Item.broken).toList := by
  have hkept (payloads : List Bytes) :
      (payloads.map (Item.ofDecoded ∘ decode)).filter (fun item => !item.isOfEnd) =
        payloads.map (Item.ofDecoded ∘ decode) := by
    refine List.filter_eq_self.2 fun item hitem => ?_
    obtain ⟨payload, -, rfl⟩ := List.mem_map.1 hitem
    rw [Function.comp_apply, isOfEnd_ofDecoded]
    rfl
  rw [settled, items_eq_feed, List.filter_append, hkept, filter_fault?]

theorem exists_ending (maxLength : Nat) (body : Body) :
    ∃ ending, items decode maxLength body = settled decode maxLength body ++ ending ∧
      ending.length ≤ 1 := by
  rw [settled_eq, items_eq_feed]
  generalize feed maxLength .start body.chunks.flatten = fed
  cases fed.2 with
  | oversized => exact ⟨[], (List.append_nil _).symm, Nat.zero_le 1⟩
  | length taken | payload missing taken =>
    rw [State.settledFault?, Option.map_none, Option.toList_none, List.append_nil]
    exact ⟨_, rfl, Option.length_toList_le⟩

variable {body longer : Body}

theorem settled_prefix {more : Bytes}
    (bytes : longer.chunks.flatten = body.chunks.flatten ++ more) :
    settled decode maxLength body <+: items decode maxLength longer := by
  rw [settled_eq, items_eq_feed, bytes, feed_append]
  generalize feed maxLength .start body.chunks.flatten = fed
  obtain ⟨payloads, state⟩ := fed
  cases state with
  | oversized =>
    simp only [feed_oversized, List.append_nil]
    exact List.prefix_rfl
  | length taken | payload missing taken =>
    rw [State.settledFault?, Option.map_none, Option.toList_none, List.append_nil, List.map_append,
      List.append_assoc]
    exact List.prefix_append _ _

theorem items_of_exceeds {payloads : List Bytes} {rest : Bytes}
    (hfits : ∀ payload ∈ payloads, Fits maxLength payload) (exceeds : Exceeds maxLength rest)
    (bytes : body.chunks.flatten = encodeAll payloads ++ rest) :
    items decode maxLength body =
      payloads.map (Item.ofDecoded ∘ decode) ++ [.broken .oversized] := by
  rw [items_eq_feed, bytes, feed_encodeAll rest hfits, feed_exceeds exceeds]
  simp [State.fault?]

theorem Exceeds.append {rest : Bytes} (exceeds : Exceeds maxLength rest) (more : Bytes) :
    Exceeds maxLength (rest ++ more) := by
  obtain ⟨length, payload, hlimit, hfield, rfl⟩ := exceeds
  exact ⟨length, payload ++ more, hlimit, hfield, List.append_assoc ..⟩

theorem items_of_frame {before : List Bytes} {payload rest : Bytes}
    (hfits : ∀ other ∈ before, Fits maxLength other) (hpayload : Fits maxLength payload)
    (bytes : body.chunks.flatten = encodeAll before ++ (encode payload ++ rest)) :
    items decode maxLength body =
      before.map (Item.ofDecoded ∘ decode) ++
        Item.ofDecoded (decode payload) :: items decode maxLength ⟨[rest], body.failure⟩ := by
  rw [items_eq_feed, items_eq_feed, bytes, feed_encodeAll _ hfits, feed_encode rest hpayload,
    List.flatten_singleton]
  simp

theorem length_items_le (maxLength : Nat) (body : Body) :
    (items decode maxLength body).length ≤ body.chunks.flatten.length / 4 + 1 := by
  have hframes := length_feed_start_le maxLength body.chunks.flatten
  rw [items_eq_feed, List.length_append, List.length_map]
  refine Nat.add_le_add ?_ Option.length_toList_le
  omega

/-- However a body is cut and whatever follows its bytes: its items are the first of those of the
longer body, without the last if it is a fault of the end. A length beyond the limit is the last
that is read, so that nothing depends on what follows it. A payload that cannot be decoded is one
item, and the next frame is read as if it came first. There is at most one item for every four
bytes and one more. -/
theorem settled_prefix_items (maxLength : Nat) {more : Bytes}
    (bytes : longer.chunks.flatten = body.chunks.flatten ++ more) :
    (∃ ending, items decode maxLength body = settled decode maxLength body ++ ending ∧
        ending.length ≤ 1) ∧
      settled decode maxLength body <+: items decode maxLength longer ∧
      (∀ payloads rest, (∀ payload ∈ payloads, Fits maxLength payload) → Exceeds maxLength rest →
        body.chunks.flatten = encodeAll payloads ++ rest →
        items decode maxLength body = items decode maxLength longer ∧
          items decode maxLength body =
            payloads.map (Item.ofDecoded ∘ decode) ++ [.broken .oversized]) ∧
      (∀ before payload rest fault, (∀ other ∈ before, Fits maxLength other) →
        Fits maxLength payload → decode payload = .error fault →
        body.chunks.flatten = encodeAll before ++ (encode payload ++ rest) →
        items decode maxLength body =
          before.map (Item.ofDecoded ∘ decode) ++
            .undecodable fault :: items decode maxLength ⟨[rest], body.failure⟩) ∧
      (items decode maxLength body).length ≤ body.chunks.flatten.length / 4 + 1 := by
  refine ⟨exists_ending decode maxLength body, settled_prefix decode bytes, ?_, ?_, ?_⟩
  · intro payloads rest hfits exceeds hbody
    have hitems := items_of_exceeds decode hfits exceeds hbody
    rw [hbody, List.append_assoc] at bytes
    rw [hitems, items_of_exceeds decode hfits (exceeds.append more) bytes]
    exact ⟨rfl, rfl⟩
  · intro before payload rest fault hfits hpayload undecodable hbody
    rw [items_of_frame decode hfits hpayload hbody, undecodable]
    rfl
  · exact length_items_le decode maxLength body

end Items

section Hostile

/-- An empty message, a payload that cannot be decoded, and a length of nine. -/
def hostileBytes : Bytes := [0, 0, 0, 0, 0, 0, 0, 1, 7, 0, 0, 0, 9]

def cutBody : Body := ⟨[hostileBytes.take 12], none⟩

def hostileBody : Body := ⟨[hostileBytes], none⟩

def continuedBody : Body := ⟨[hostileBytes, encode []], none⟩

def hostileItems : List (Item Response) := [.message .empty, .undecodable ⟨[], .unknownForm 7⟩]

/-- The first body ends within the length that is beyond the limit: with one byte more it ends in
another fault, and a whole frame after that is not read. -/
theorem settled_prefix_items_of_hostile :
    items Response.decode 8 cutBody = hostileItems ++ [.broken .truncated] ∧
      hostileItems <+: items Response.decode 8 continuedBody ∧
      items Response.decode 8 continuedBody = hostileItems ++ [.broken .oversized] := by
  have cut : items Response.decode 8 cutBody = hostileItems ++ [.broken .truncated] := by rfl
  have hsettled : settled Response.decode 8 cutBody = hostileItems := by
    rw [settled, cut]
    rfl
  have hfits : ∀ payload ∈ [([] : Bytes), [7]], Fits 8 payload := by simp [Fits]
  have exceeds : Exceeds 8 [0, 0, 0, 9] := ⟨9, [], by decide, by decide, by decide⟩
  have afterCut : continuedBody.chunks.flatten = cutBody.chunks.flatten ++ [9, 0, 0, 0, 0] := by
    decide
  have afterAll : continuedBody.chunks.flatten = hostileBody.chunks.flatten ++ encode [] := by
    decide
  obtain ⟨-, first, -⟩ := settled_prefix_items Response.decode 8 afterCut
  obtain ⟨-, -, final, -⟩ := settled_prefix_items Response.decode 8 afterAll
  obtain ⟨same, last⟩ := final _ _ hfits exceeds (by decide)
  rw [hsettled] at first
  rw [same] at last
  exact ⟨cut, first, last⟩

end Hostile

end NodeAttestation.Frame
