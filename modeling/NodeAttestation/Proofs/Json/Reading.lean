import NodeAttestation.Json.Record
import NodeAttestation.Proofs.Json.Double
import NodeAttestation.Proofs.Json.Text
import NodeAttestation.Proofs.Time.Stamp

/-! # Readers take a value from its text and leave what follows. -/

namespace NodeAttestation.Json

def AllSpace (text : List Char) : Prop := ∀ c ∈ text, isSpace c = true

/-- A reader takes a value from its text wherever that stands, unless a number goes on there. -/
def Reads {α : Type} (read : Reader α) (text : List Char) (value : α) : Prop :=
  ∀ space rest, AllSpace space → EndsNumber rest →
    read (space ++ (text ++ rest)) = .ok (value, rest)

variable {space rest : List Char} {c : Char}

theorem allSpace_nil : AllSpace [] := fun _ h => nomatch h

theorem skipSpace_append (hspace : AllSpace space) (hc : isSpace c = false) :
    skipSpace (space ++ c :: rest) = c :: rest := by
  rw [skipSpace, List.dropWhile_append_of_pos hspace, List.dropWhile_cons, hc]
  rfl

theorem isSpace_of_isDigit (h : c.isDigit = true) : isSpace c = false := by
  simp only [isSpace, Bool.or_eq_false_iff, beq_eq_false_iff_ne]
  refine ⟨⟨⟨?_, ?_⟩, ?_⟩, ?_⟩
  all_goals
    rintro rfl
    cases h

section Texts

variable {text : String} {spelled : List Char}

theorem reads_textAs_of_spells (wanted : String) (h : SpellsText text.toList spelled) :
    Reads (readTextAs wanted) ('"' :: (spelled ++ ['"'])) text := by
  intro space rest hspace _
  rw [List.cons_append, List.append_assoc, readTextAs, skipSpace_append hspace (by rfl)]
  exact readText_of_spells h rest

theorem reads_textAs (wanted text : String) : Reads (readTextAs wanted) (quoteText text) text :=
  reads_textAs_of_spells wanted (spellsText_escape text.toList)

theorem reads_string (text : String) : Reads readString (quoteText text) text :=
  reads_textAs "a string" text

theorem reads_stamp (t : Instant) : Reads readStamp (quoteText t.stamp) t.restamped := by
  intro space rest hspace ends
  rw [readStamp, reads_textAs _ _ space rest hspace ends]
  simp [Bind.bind, Except.bind, Stamp.read_stamp]

theorem reads_choice {α : Type} {choices : List (String × α)} {choice : String × α}
    (chosen : choices.find? (·.1 == text) = some choice) (h : SpellsText text.toList spelled) :
    Reads (readChoice choices) ('"' :: (spelled ++ ['"'])) choice.2 := by
  intro space rest hspace _
  rw [List.cons_append, List.append_assoc, readChoice, skipSpace_append hspace (by rfl)]
  simp only [List.singleton_append, readText_of_spells h rest, Bind.bind, Except.bind, Json.chosen,
    chosen]

end Texts

section Words

theorem reads_bool (b : Bool) : Reads readBool (boolText b) b := by
  intro space rest hspace _
  cases b with
  | false =>
    have htext : boolText false ++ rest = 'f' :: ("alse".toList ++ rest) := rfl
    rw [htext, readBool, skipSpace_append hspace (by rfl)]
    rfl
  | true =>
    have htext : boolText true ++ rest = 't' :: ("rue".toList ++ rest) := rfl
    rw [htext, readBool, skipSpace_append hspace (by rfl)]
    rfl

variable {α : Type} {read : Reader α} {text : List Char} {value : α}

theorem reads_null : Reads (readOption read) "null".toList none := by
  intro space rest hspace _
  have htext : "null".toList ++ rest = 'n' :: ("ull".toList ++ rest) := rfl
  rw [htext, readOption, skipSpace_append hspace (by rfl)]
  rfl

theorem Reads.option (reads : Reads read text value) {tail : List Char} (htext : text = c :: tail)
    (hc : isSpace c = false) (hnull : c ≠ 'n') : Reads (readOption read) text (some value) := by
  intro space rest hspace ends
  have hread := reads [] rest allSpace_nil ends
  subst htext
  rw [List.cons_append, List.nil_append] at hread
  rw [List.cons_append, readOption, skipSpace_append hspace hc]
  split
  · rename_i heq
    cases heq
    exact absurd rfl hnull
  · rw [hread]
    rfl

theorem reads_option (text : Option String) (depth : Nat) :
    Reads (readOption readString) ((ofOption text).indentedChars depth) text := by
  cases text with
  | none => exact reads_null
  | some text => exact (reads_string text).option rfl (by rfl) (by decide)

end Words

section Numbers

variable {n : Numeral} {value : Number}

theorem readNumber_numeral (readable : n.IsReadable) (hvalue : n.value? = some value)
    (ends : EndsNumber rest) : readNumber n.negative (n.text ++ rest) = .ok (value, rest) := by
  rw [readNumber, Numeral.numeral_text readable ends]
  simp [hvalue]

theorem Numeral.IsReadable.exists_digit (readable : n.IsReadable) :
    ∃ c tail, n.text = c :: tail ∧ c.isDigit = true := by
  obtain ⟨c, tail, heq⟩ := List.exists_cons_of_ne_nil readable.whole.ne_nil
  have all := readable.whole.allDigits
  rw [heq, allDigits_cons] at all
  rw [Numeral.text, heq, List.cons_append]
  exact ⟨c, _, rfl, all.1⟩

theorem readNumberAs_numeral (wanted : String) (readable : n.IsReadable)
    (hvalue : n.value? = some value) (hspace : AllSpace space) (ends : EndsNumber rest) :
    readNumberAs wanted (space ++ ((if n.negative then '-' :: n.text else n.text) ++ rest)) =
      .ok (value, rest) := by
  have hread := readNumber_numeral readable hvalue ends
  cases hsign : n.negative with
  | true =>
    rw [hsign] at hread
    rw [if_pos rfl, List.cons_append, readNumberAs, skipSpace_append hspace (by rfl)]
    exact hread
  | false =>
    rw [hsign] at hread
    obtain ⟨c, tail, htext, hc⟩ := readable.exists_digit
    rw [htext, List.cons_append] at hread
    rw [if_neg Bool.false_ne_true, readNumberAs, htext, List.cons_append,
      skipSpace_append hspace (isSpace_of_isDigit hc)]
    split
    · rename_i hminus
      cases hminus
      exact absurd hc (by decide)
    · rename_i hcons
      cases hcons
      rw [if_pos hc]
      exact hread
    · rename_i hnil
      cases hnil

theorem readBelow_of_lt {bound n : Nat} {wanted : String} {input : List Char} (h : n < bound)
    (hread : readNumberAs wanted input = .ok (.integer n, rest)) :
    readBelow bound wanted input = .ok (n, rest) := by
  have hbound : (decide ((0 : Int) ≤ n) && decide ((n : Int) < bound)) = true := by
    simp [h]
  simp only [readBelow, hread, Bind.bind, Except.bind]
  rw [if_pos hbound, Int.toNat_natCast]

theorem readNumberAs_natural (wanted : String) {n : Nat} (h : n < 2 ^ 64) (hspace : AllSpace space)
    (ends : EndsNumber rest) :
    readNumberAs wanted (space ++ (Nat.toDigits 10 n ++ rest)) = .ok (.integer n, rest) := by
  have hvalue : Numeral.significand ⟨false, Nat.toDigits 10 n, none, none⟩ = n := by
    simp [Numeral.significand]
  have hread := readNumberAs_numeral wanted (n := ⟨false, Nat.toDigits 10 n, none, none⟩)
    ⟨isWhole_toDigits _, by rintro _ ⟨⟩⟩
    (Numeral.value?_integer rfl rfl rfl (by rw [hvalue]; exact h)) hspace ends
  rw [hvalue] at hread
  simpa only [Numeral.text, Option.map_none, Option.getD_none, List.append_nil,
    Bool.false_eq_true, if_false] using hread

theorem integerText_ofNat (n : Nat) : integerText n = Nat.toDigits 10 n := by
  rw [integerText, if_neg (by omega), Int.natAbs_natCast]

theorem reads_uint32 (n : UInt32) (depth : Nat) :
    Reads readUInt32 ((ofNat n.toNat).indentedChars depth) n := by
  intro space rest hspace ends
  have hlt := n.toNat_lt
  have hread := readNumberAs_natural "u32" (show n.toNat < 2 ^ 64 by omega) hspace ends
  rw [ofNat, indentedChars, integerText_ofNat, readUInt32, readBelow_of_lt hlt hread]
  simp [Except.map]

theorem reads_uint64 (wanted : String) (n : UInt64) :
    Reads (readUInt64 wanted) (integerText n.toNat) n := by
  intro space rest hspace ends
  have hlt := n.toNat_lt
  have hread := readNumberAs_natural wanted hlt hspace ends
  rw [integerText_ofNat, readUInt64, readBelow_of_lt hlt hread]
  simp [Except.map]

theorem reads_double {x : Double} (finite : x.isFinite = true) (depth : Nat) :
    Reads readDouble ((Json.double x).indentedChars depth) x.reread := by
  intro space rest hspace ends
  obtain ⟨n, hsign, readable, htext, hvalue⟩ := Double.exists_numeral finite
  have hread := readNumberAs_numeral "f64" readable hvalue hspace ends
  rw [hsign] at hread
  rw [indentedChars, doubleText, if_pos finite, htext, Double.signed, readDouble, hread]
  rfl

end Numbers

end NodeAttestation.Json
