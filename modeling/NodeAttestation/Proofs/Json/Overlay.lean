import NodeAttestation.Proofs.Json.Members
import NodeAttestation.Proofs.Json.Object

/-!
# Records that are laid over others

An object that gives some members of a record, in any order and among others that the record does
not know, is read as that record where it gives a member, and as the initial one elsewhere.
-/

namespace NodeAttestation.Json

/-- The members of an object. -/
def members : Json → List (String × Json)
  | object members => members
  | _ => []

/-- How a value that holds no other may be written. Only strings leave a choice. -/
def SpellsScalar : Json → List Char → Prop
  | null, written => written = "null".toList
  | bool b, written => written = boolText b
  | integer n, written => written = integerText n
  | text value, written =>
    ∃ spelled, SpellsText value.toList spelled ∧ written = '"' :: (spelled ++ ['"'])
  | _, _ => False

/-- Members of an object, each of them one of some given ones, or else with a name that none of
these has and any value. No given one stands twice. -/
inductive Holds (given : List (String × Json)) : List (String × List Char) → Prop
  | nil : Holds given []
  | given {name : String} {json : Json} {value : List Char} {members : List (String × List Char)}
      (mem : (name, json) ∈ given) (spelled : SpellsScalar json value)
      (once : name ∉ members.map (·.1)) (later : Holds given members) :
      Holds given ((name, value) :: members)
  | other {name : String} {value : List Char} {members : List (String × List Char)}
      (foreign : name ∉ given.map (·.1)) (form : Grammar .value value)
      (later : Holds given members) : Holds given ((name, value) :: members)

section Overlays

variable {σ : Type} {shape : Shape σ} {given : List (String × Json)}
  {overlaid : List String → σ} {members : List (String × List Char)}

/-- Reading a record of some shape lays given members over its initial values: `overlaid` says what
comes of it, from the names of those that there are. -/
structure Shape.Overlays (shape : Shape σ) (given : List (String × Json))
    (overlaid : List String → σ) : Prop where
  start : overlaid [] = shape.start
  names : shape.fields.map (·.name) = given.map (·.1)
  optional : ∀ field ∈ shape.fields, field.optional = true
  reads : ∀ member ∈ given, ∃ field, shape.fields.find? (·.name == member.1) = some field ∧
    ∀ taken value, SpellsScalar member.2 value →
      Reads (field.read (overlaid taken)) value (overlaid (member.1 :: taken))
  congr : ∀ taken others, (∀ name ∈ given.map (·.1), name ∈ taken ↔ name ∈ others) →
    overlaid taken = overlaid others

namespace Shape.Overlays

theorem firstMissing?_eq_none (overlays : shape.Overlays given overlaid) (seen : List String) :
    shape.firstMissing? seen = none := by
  rw [firstMissing?, Option.map_eq_none_iff, List.find?_eq_none]
  intro field hfield
  simp [overlays.optional field hfield]

theorem find?_eq_none (overlays : shape.Overlays given overlaid) {name : String}
    (foreign : name ∉ given.map (·.1)) : shape.fields.find? (·.name == name) = none := by
  rw [← overlays.names] at foreign
  rw [List.find?_eq_none]
  intro field hfield heq
  exact foreign (List.mem_map.2 ⟨field, hfield, beq_iff_eq.1 heq⟩)

/-- The names that have been read are among those taken, which may be foreign. -/
theorem filledBy (overlays : shape.Overlays given overlaid) (holds : Holds given members)
    {seen taken : List String} (fresh : ∀ name ∈ members.map (·.1), name ∈ given.map (·.1) →
      name ∉ seen) :
    shape.FilledBy seen (overlaid taken) members
      (overlaid ((members.map (·.1)).reverse ++ taken)) := by
  induction holds generalizing seen taken with
  | nil => exact .done (overlays.firstMissing?_eq_none seen)
  | @given name json value members mem spelled once _ ih =>
    obtain ⟨field, found, reads⟩ := overlays.reads _ mem
    have known : name ∈ given.map (·.1) := List.mem_map_of_mem mem
    have new := fresh name List.mem_cons_self known
    rw [List.map_cons, List.reverse_cons, List.append_assoc]
    refine .known found (by simpa using new) (reads taken value spelled) (ih ?_)
    intro other hother hgiven hseen
    rcases List.mem_cons.1 hseen with rfl | hseen
    · exact once hother
    · exact fresh other (List.mem_cons_of_mem _ hother) hgiven hseen
  | @other name value members foreign form _ ih =>
    have same : overlaid taken = overlaid (name :: taken) := by
      refine overlays.congr _ _ fun other hother => ?_
      have hne : other ≠ name := fun h => foreign (h ▸ hother)
      simp [hne]
    rw [List.map_cons, List.reverse_cons, List.append_assoc, same]
    exact .unknown (overlays.find?_eq_none foreign) form
      (ih fun other hother => fresh other (List.mem_cons_of_mem _ hother))

theorem readDocument_eq (overlays : shape.Overlays given overlaid) (holds : Holds given members)
    {text : String} (spelled : SpellsObject members text.toList) :
    readDocument shape.read text = .ok (overlaid (members.map (·.1))) := by
  have filled : shape.FilledBy [] (overlaid []) members
      (overlaid ((members.map (·.1)).reverse ++ [])) :=
    overlays.filledBy holds fun _ _ _ => List.not_mem_nil
  rw [overlays.start, List.append_nil] at filled
  rw [filled.readDocument_eq spelled]
  exact congrArg Except.ok (overlays.congr _ _ fun name _ => List.mem_reverse)

theorem exists_field {α : Type} {name : String} {json : Json} {value : α} {read : Reader α}
    {put : σ → α → σ} (found : shape.fields.find? (·.name == name) = some (.default name read put))
    (reads : ∀ written, SpellsScalar json written → Reads read written value)
    (laid : ∀ taken, put (overlaid taken) value = overlaid (name :: taken)) :
    ∃ field, shape.fields.find? (·.name == name) = some field ∧
      ∀ taken written, SpellsScalar json written →
        Reads (field.read (overlaid taken)) written (overlaid (name :: taken)) := by
  refine ⟨_, found, fun taken written h => ?_⟩
  rw [← laid taken]
  exact (reads written h).default name put _

end Shape.Overlays

end Overlays

section Scalars

variable {written : List Char}

theorem reads_string_of_spells {value : String} (h : SpellsScalar (.text value) written) :
    Reads readString written value := by
  obtain ⟨spelled, spells, rfl⟩ := h
  exact reads_textAs_of_spells "a string" spells

theorem reads_choice_of_spells {α : Type} {choices : List (String × α)} {name : String} {value : α}
    (chosen : choices.find? (·.1 == name) = some (name, value))
    (h : SpellsScalar (.text name) written) : Reads (readChoice choices) written value := by
  obtain ⟨spelled, spells, rfl⟩ := h
  exact reads_choice chosen spells

theorem reads_bool_of_spells {b : Bool} (h : SpellsScalar (.bool b) written) :
    Reads readBool written b := by
  obtain rfl := h
  exact reads_bool b

theorem reads_uint64_of_spells {n : UInt64} (wanted : String)
    (h : SpellsScalar (ofNat n.toNat) written) : Reads (readUInt64 wanted) written n := by
  obtain rfl := h
  exact reads_uint64 wanted n

theorem reads_optionalString_of_spells {value : Option String}
    (h : SpellsScalar (ofOption value) written) :
    Reads (readOption readString) written value := by
  cases value with
  | none =>
    obtain rfl := h
    exact reads_null
  | some value =>
    have reads := reads_string_of_spells h
    obtain ⟨spelled, -, rfl⟩ := h
    exact reads.option rfl (by rfl) (by decide)

theorem exists_digit_toDigits (n : Nat) :
    ∃ c tail, Nat.toDigits 10 n = c :: tail ∧ c.isDigit = true := by
  obtain ⟨c, tail, htext⟩ := List.exists_cons_of_ne_nil (isWhole_toDigits n).ne_nil
  have all := (isWhole_toDigits n).allDigits
  rw [htext] at all
  exact ⟨c, tail, htext, (allDigits_cons.1 all).1⟩

theorem reads_someUInt64_of_spells {n : UInt64} (wanted : String)
    (h : SpellsScalar (ofNat n.toNat) written) :
    Reads (readOption (readUInt64 wanted)) written (some n) := by
  have reads := reads_uint64_of_spells wanted h
  obtain ⟨c, tail, htext, hc⟩ := exists_digit_toDigits n.toNat
  obtain rfl := h
  refine reads.option ((integerText_ofNat _).trans htext) (isSpace_of_isDigit hc) ?_
  rintro rfl
  cases hc

end Scalars

section Writing

/-- Values that hold no others. -/
def IsScalar : Json → Prop
  | null | bool _ | integer _ | text _ => True
  | _ => False

variable {given : List (String × Json)}

theorem isScalar_ofOption (value : Option String) : (ofOption value).IsScalar := by
  cases value <;> trivial

theorem spellsScalar_compactChars {json : Json} (h : json.IsScalar) :
    SpellsScalar json json.compactChars := by
  cases json with
  | null | bool | integer => simp only [SpellsScalar, compactChars]
  | text value =>
    rw [compactChars]
    exact ⟨_, spellsText_escape value.toList, rfl⟩
  | _ => cases h

theorem spellsScalar_indentedChars {json : Json} (h : json.IsScalar) (depth : Nat) :
    SpellsScalar json (json.indentedChars depth) := by
  cases json with
  | null | bool | integer => simp only [SpellsScalar, indentedChars]
  | text value =>
    rw [indentedChars]
    exact ⟨_, spellsText_escape value.toList, rfl⟩
  | _ => cases h

/-- An object holds its own members, however they are written. -/
theorem holds_self (distinct : (given.map (·.1)).Nodup) {write : Json → List Char}
    (written : ∀ member ∈ given, SpellsScalar member.2 (write member.2)) :
    Holds given (given.map fun member => (member.1, write member.2)) := by
  suffices h : ∀ members, members ⊆ given → (members.map (·.1)).Nodup →
      Holds given (members.map fun member => (member.1, write member.2)) from
    h given (List.Subset.refl _) distinct
  intro members sub
  induction members with
  | nil => exact fun _ => .nil
  | cons member members ih =>
    intro distinct
    rw [List.map_cons, List.nodup_cons] at distinct
    have mem := sub List.mem_cons_self
    refine .given mem (written _ mem) ?_ (ih (fun _ h => sub (List.mem_cons_of_mem _ h)) distinct.2)
    simpa [List.map_map, Function.comp_def] using distinct.1

end Writing

end NodeAttestation.Json
