import NodeAttestation.Error
import NodeAttestation.Proofs.Frame.Reading

/-!
# Truncated bodies

The end of a body is checked against bytes that belong to no frame. A body that ends within a
frame leaves such bytes behind, unless it ends right after a length field: that field is no longer
there, and nothing of its payload is. So exactly these truncations go unnoticed.
-/

namespace NodeAttestation.Frame

variable {maxLength : Nat}

theorem feed_begun {rest : Bytes} (h : Begun maxLength rest) :
    (feed maxLength .start rest).1 = [] ∧
      (feed maxLength .start rest).2.fault? none =
        if rest.length = 4 then none else some .truncated := by
  cases h with
  | length _ hsome hshort =>
    have hlength : rest.length ≠ 4 := Nat.ne_of_lt hshort
    rw [State.start, feed_length_short rest (by simpa using hshort), if_neg hlength]
    simp [State.fault?, hsome]
  | payload length taken hlimit hfield hshort =>
    have hfour : (Bytes.bigEndian 4 length ++ taken).length = 4 + taken.length := by
      rw [List.length_append, Bytes.bigEndian, List.length_reverse, Bytes.length_littleEndian]
    rw [feed_bigEndian_payload taken hfield (by omega) hlimit, feed_payload_short taken hshort,
      hfour]
    -- The length is no longer among the bytes that are left over, only the payload is.
    cases taken with
    | nil => simp [State.fault?]
    | cons b taken => simp [State.fault?]

theorem feed_exceeds {rest : Bytes} (h : Exceeds maxLength rest) :
    feed maxLength .start rest = ([], .oversized) := by
  obtain ⟨length, more, hlimit, hfield, rfl⟩ := h
  rw [feed_bigEndian more hfield, State.ofLength, if_pos hlimit, feed_oversized]
  rfl

section Items

variable {α : Type} (decode : Bytes → Except Wire.Fault α)

theorem Item.ofDecoded_ne_broken (result : Except Wire.Fault α) (fault : Fault) :
    Item.ofDecoded result ≠ .broken fault := by
  cases result <;> simp [Item.ofDecoded]

theorem items_of_flatten {payloads chunks : List Bytes} {rest : Bytes}
    (hfits : ∀ payload ∈ payloads, Fits maxLength payload)
    (hchunks : chunks.flatten = encodeAll payloads ++ rest)
    (hrest : (feed maxLength .start rest).1 = []) (failure : Option String) :
    items decode maxLength ⟨chunks, failure⟩ =
      payloads.map (Item.ofDecoded ∘ decode) ++
        (((feed maxLength .start rest).2.fault? failure).map Item.broken).toList := by
  have hfeed : feedChunks maxLength .start chunks = (payloads, (feed maxLength .start rest).2) := by
    rw [feedChunks_eq_feed_flatten, hchunks, feed_encodeAll rest hfits, hrest, List.append_nil]
  simp [items, Frame.payloads, hfeed]

/-- No item of the frames that are whole tells of a fault. -/
theorem broken_mem_items_iff {payloads : List Bytes} {fault : Option Fault} {broken : Fault} :
    Item.broken broken ∈
        payloads.map (Item.ofDecoded ∘ decode) ++ (fault.map Item.broken).toList ↔
      fault = some broken := by
  rw [List.mem_append, List.mem_map]
  constructor
  · rintro (⟨payload, -, hpayload⟩ | hfault)
    · exact absurd hpayload (Item.ofDecoded_ne_broken _ _)
    · simpa using hfault
  · rintro rfl
    exact .inr (by simp)

theorem ofItem_eq_framing {item : Item α} {reason : String}
    (h : Error.ofItem item = .error (.framing reason)) : ∃ fault, item = .broken fault := by
  cases item with
  | message value => cases h
  | undecodable fault => cases h
  | broken fault => exact ⟨fault, rfl⟩

theorem getLast?_items_begun {payloads chunks : List Bytes} {rest : Bytes}
    (hfits : ∀ payload ∈ payloads, Fits maxLength payload) (hrest : Begun maxLength rest)
    (hchunks : chunks.flatten = encodeAll payloads ++ rest) :
    (∃ fault, (items decode maxLength ⟨chunks, none⟩).getLast? = some (.broken fault)) ↔
      rest.length ≠ 4 := by
  obtain ⟨hnone, hfault⟩ := feed_begun hrest
  rw [items_of_flatten decode hfits hchunks hnone, hfault]
  constructor
  · rintro ⟨fault, hlast⟩ hfour
    have hmem := List.mem_of_getLast? hlast
    rw [if_pos hfour, broken_mem_items_iff] at hmem
    cases hmem
  · intro hfour
    exact ⟨.truncated, by simp [hfour]⟩

theorem forall_items_ne_broken_iff (chunks : List Bytes) :
    (∀ fault, Item.broken fault ∉ items decode maxLength ⟨chunks, none⟩) ↔
      ∃ payloads rest, (∀ payload ∈ payloads, Fits maxLength payload) ∧
        chunks.flatten = encodeAll payloads ++ rest ∧
        (rest = [] ∨ Begun maxLength rest ∧ rest.length = 4) := by
  constructor
  · intro hitems
    obtain ⟨payloads, rest, hfits, hchunks, hrest⟩ := exists_encodeAll maxLength chunks.flatten
    refine ⟨payloads, rest, hfits, hchunks, ?_⟩
    rcases hrest with hempty | hbegun | hexceeds
    · exact .inl hempty
    · refine .inr ⟨hbegun, Decidable.byContradiction fun hfour => ?_⟩
      obtain ⟨fault, hlast⟩ := (getLast?_items_begun decode hfits hbegun hchunks).2 hfour
      exact hitems fault (List.mem_of_getLast? hlast)
    · have hfeed := feed_exceeds hexceeds
      have hnone : (feed maxLength .start rest).1 = [] := by rw [hfeed]
      refine absurd ?_ (hitems .oversized)
      rw [items_of_flatten decode hfits hchunks hnone, broken_mem_items_iff, hfeed]
      rfl
  · rintro ⟨payloads, rest, hfits, hchunks, hrest⟩ fault hitem
    have hend : (feed maxLength .start rest).1 = [] ∧
        (feed maxLength .start rest).2.fault? none = none := by
      rcases hrest with rfl | ⟨hbegun, hfour⟩
      · exact ⟨rfl, rfl⟩
      · obtain ⟨hnone, hfault⟩ := feed_begun hbegun
        exact ⟨hnone, by rw [hfault, if_pos hfour]⟩
    rw [items_of_flatten decode hfits hchunks hend.1, broken_mem_items_iff, hend.2] at hitem
    cases hitem

/-- A body of whole frames and a begun one ends in a framing error exactly if it does not end
after the four bytes of a length. No body is taken for complete but those of whole frames, with
or without such a length after them. -/
theorem truncation_noticed_iff (maxLength : Nat) (chunks : List Bytes) :
    (∀ payloads rest, (∀ payload ∈ payloads, Fits maxLength payload) → Begun maxLength rest →
      chunks.flatten = encodeAll payloads ++ rest →
        ((∃ reason, (items decode maxLength ⟨chunks, none⟩).getLast?.map Error.ofItem =
            some (.error (.framing reason))) ↔ rest.length ≠ 4)) ∧
      ((∀ item ∈ items decode maxLength ⟨chunks, none⟩, ∀ reason,
          Error.ofItem item ≠ .error (.framing reason)) ↔
        ∃ payloads rest, (∀ payload ∈ payloads, Fits maxLength payload) ∧
          chunks.flatten = encodeAll payloads ++ rest ∧
          (rest = [] ∨ Begun maxLength rest ∧ rest.length = 4)) := by
  constructor
  · intro payloads rest hfits hrest hchunks
    rw [← getLast?_items_begun decode hfits hrest hchunks]
    constructor
    · rintro ⟨reason, hlast⟩
      obtain ⟨item, hitem, hreason⟩ := Option.map_eq_some_iff.1 hlast
      obtain ⟨fault, rfl⟩ := ofItem_eq_framing hreason
      exact ⟨fault, hitem⟩
    · rintro ⟨fault, hlast⟩
      exact ⟨fault.message, by rw [hlast]; rfl⟩
  · rw [← forall_items_ne_broken_iff decode chunks]
    constructor
    · intro hitems fault hfault
      exact hitems _ hfault fault.message rfl
    · intro hitems item hitem reason hreason
      obtain ⟨fault, rfl⟩ := ofItem_eq_framing hreason
      exact hitems fault hitem

end Items

/-- Bytes of the first and of the second chunk belong to one length. -/
theorem truncation_noticed_within_payload :
    (∀ payload ∈ [[7], ([] : Bytes)], Fits 8 payload) ∧ Begun 8 [0, 0, 0, 5, 1] ∧
      ∃ reason, (items Response.decode 8
        ⟨[[0, 0], [0, 1, 7, 0, 0, 0], [0, 0, 0, 0, 5, 1]], none⟩).getLast?.map Error.ofItem =
          some (.error (.framing reason)) := by
  have hfits : ∀ payload ∈ [[7], ([] : Bytes)], Fits 8 payload := by simp [Fits]
  have hbegun : Begun 8 [0, 0, 0, 5, 1] :=
    .payload 5 [1] (by decide) (by decide) (by decide)
  exact ⟨hfits, hbegun,
    ((truncation_noticed_iff Response.decode 8 _).1 _ _ hfits hbegun rfl).2 (by decide)⟩

/-- A length of five and no payload: the frame has begun and the body is taken for complete. -/
theorem truncation_unnoticed_after_length :
    Begun 4194304 [0, 0, 0, 5] ∧ items Response.decode 4194304 ⟨[[0, 0, 0, 5]], none⟩ = [] :=
  ⟨.payload 5 [] (by decide) (by decide) (by decide), rfl⟩

end NodeAttestation.Frame
