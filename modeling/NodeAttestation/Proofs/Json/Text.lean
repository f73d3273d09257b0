import NodeAttestation.Json.Record

/-!
# A string is read as what it spells

Most characters can be spelled in more than one way. Quoting a text chooses one of them.
-/

namespace NodeAttestation.Json

/-- Stands in a string for itself. -/
structure IsPlain (c : Char) : Prop where
  noQuote : c ≠ '"'
  noBackslash : c ≠ '\\'
  noControl : 0x20 ≤ c.toNat

/-- The four digits of a unit after `\u`. -/
inductive SpellsUnit : Nat → List Char → Prop
  | digits {a b c d : Char} {i j k l : Nat} (first : hexValue? a = some i)
      (second : hexValue? b = some j) (third : hexValue? c = some k)
      (fourth : hexValue? d = some l) :
      SpellsUnit (16 * (16 * (16 * i + j) + k) + l) [a, b, c, d]

inductive SpellsChar : Char → List Char → Prop
  | plain {c : Char} (h : IsPlain c) : SpellsChar c [c]
  | short {mark c : Char} (h : shortEscape? mark = some c) : SpellsChar c ['\\', mark]
  | unit {n : Nat} {digits : List Char} (spells : SpellsUnit n digits)
      (noLow : isLowHalf n = false) (noHigh : isHighHalf n = false) :
      SpellsChar (Char.ofNat n) ('\\' :: 'u' :: digits)
  | pair {high low : Nat} {digits more : List Char} (spellsHigh : SpellsUnit high digits)
      (isHigh : isHighHalf high = true) (spellsLow : SpellsUnit low more)
      (isLow : isLowHalf low = true) :
      SpellsChar (Char.ofNat (0x10000 + (high - 0xD800) * 0x400 + (low - 0xDC00)))
        ('\\' :: 'u' :: (digits ++ '\\' :: 'u' :: more))

inductive SpellsText : List Char → List Char → Prop
  | nil : SpellsText [] []
  | cons {c : Char} {text spelled more : List Char} (first : SpellsChar c spelled)
      (later : SpellsText text more) : SpellsText (c :: text) (spelled ++ more)

variable {c : Char} {text spelled done rest : List Char}

section Reading

theorem ne_unitMark_of_shortEscape {mark : Char} (h : (shortEscape? mark).isSome = true) :
    mark ≠ 'u' := by
  rintro rfl
  cases h

theorem readTextFrom_plain (h : IsPlain c) :
    readTextFrom .plain done (c :: rest) = readTextFrom .plain (c :: done) rest := by
  rw [readTextFrom, beq_false_of_ne h.noQuote, beq_false_of_ne h.noBackslash]
  simp only [Bool.false_eq_true, if_false]
  exact if_neg (Nat.not_lt.2 h.noControl)

theorem readTextFrom_short {mark : Char} (h : shortEscape? mark = some c) :
    readTextFrom .escape done (mark :: rest) = readTextFrom .plain (c :: done) rest := by
  have hmark := ne_unitMark_of_shortEscape (Option.isSome_of_eq_some h)
  simp only [readTextFrom, beq_false_of_ne hmark, Bool.false_eq_true, if_false, h]

theorem readTextFrom_unit {n : Nat} {digits : List Char} {high : Option Nat}
    (spells : SpellsUnit n digits) (closed : closeUnit high n = .ok (.inl c)) :
    readTextFrom (.unit high 0 4) done (digits ++ rest) =
      readTextFrom .plain (c :: done) rest := by
  cases spells with
  | digits first second third fourth =>
    simp only [List.cons_append, List.nil_append, readTextFrom, first, second, third, fourth]
    simp [closed]

theorem readTextFrom_half {n : Nat} {digits : List Char} (spells : SpellsUnit n digits)
    (closed : closeUnit none n = .ok (.inr n)) :
    readTextFrom (.unit none 0 4) done (digits ++ rest) = readTextFrom (.paired n) done rest := by
  cases spells with
  | digits first second third fourth =>
    simp only [List.cons_append, List.nil_append, readTextFrom, first, second, third, fourth]
    simp [closed]

theorem not_isLowHalf_of_isHighHalf {n : Nat} (h : isHighHalf n = true) :
    isLowHalf n = false := by
  simp only [isHighHalf, isLowHalf, Bool.and_eq_true, Bool.and_eq_false_iff,
    decide_eq_true_eq, decide_eq_false_iff_not] at h ⊢
  omega

theorem SpellsChar.readTextFrom_eq (h : SpellsChar c spelled) (done rest : List Char) :
    readTextFrom .plain done (spelled ++ rest) = readTextFrom .plain (c :: done) rest := by
  cases h with
  | plain h => exact readTextFrom_plain h
  | short h => exact readTextFrom_short h
  | @unit n digits spells noLow noHigh =>
    have closed : closeUnit none n = .ok (.inl (Char.ofNat n)) := by
      simp [closeUnit, noLow, noHigh]
    exact readTextFrom_unit spells closed
  | @pair high low digits more spellsHigh isHigh spellsLow isLow =>
    have half : closeUnit none high = .ok (.inr high) := by
      simp [closeUnit, not_isLowHalf_of_isHighHalf isHigh, isHigh]
    show readTextFrom (.unit none 0 4) done (digits ++ '\\' :: 'u' :: more ++ rest) = _
    rw [List.append_assoc, readTextFrom_half spellsHigh half]
    refine readTextFrom_unit spellsLow ?_
    rw [closeUnit, if_pos isLow]

theorem SpellsText.readTextFrom_eq (h : SpellsText text spelled) (done rest : List Char) :
    readTextFrom .plain done (spelled ++ '"' :: rest) = .ok (done.reverse ++ text, rest) := by
  induction h generalizing done with
  | nil => simp [readTextFrom]
  | cons first _ ih =>
    rw [List.append_assoc, first.readTextFrom_eq, ih, List.reverse_cons, List.append_assoc]
    rfl

theorem readText_of_spells {value : String} (h : SpellsText value.toList spelled)
    (rest : List Char) : readText (spelled ++ '"' :: rest) = .ok (value, rest) := by
  rw [readText, h.readTextFrom_eq]
  simp

end Reading

section Passing

/-- What can stand in a string that is passed over: half of a pair may be alone there. -/
inductive IsTextBody : List Char → Prop
  | nil : IsTextBody []
  | plain {c : Char} {text : List Char} (h : IsPlain c) (later : IsTextBody text) :
      IsTextBody (c :: text)
  | short {mark : Char} {text : List Char} (h : (shortEscape? mark).isSome = true)
      (later : IsTextBody text) : IsTextBody ('\\' :: mark :: text)
  | unit {n : Nat} {digits text : List Char} (spells : SpellsUnit n digits)
      (later : IsTextBody text) : IsTextBody ('\\' :: 'u' :: (digits ++ text))

theorem skipTextFrom_plain (h : IsPlain c) :
    skipTextFrom .plain (c :: rest) = skipTextFrom .plain rest := by
  rw [skipTextFrom, beq_false_of_ne h.noQuote, beq_false_of_ne h.noBackslash]
  simp only [Bool.false_eq_true, if_false]
  exact if_neg (Nat.not_lt.2 h.noControl)

theorem skipTextFrom_short {mark : Char} (h : (shortEscape? mark).isSome = true) :
    skipTextFrom .escape (mark :: rest) = skipTextFrom .plain rest := by
  simp only [skipTextFrom, beq_false_of_ne (ne_unitMark_of_shortEscape h), Bool.false_eq_true,
    if_false, h, if_true]

theorem skipTextFrom_unit {n : Nat} {digits : List Char} (spells : SpellsUnit n digits) :
    skipTextFrom (.unit 4) (digits ++ rest) = skipTextFrom .plain rest := by
  cases spells with
  | digits first second third fourth =>
    simp [skipTextFrom, first, second, third, fourth]

theorem IsTextBody.skipText_eq (h : IsTextBody text) (rest : List Char) :
    skipText (text ++ '"' :: rest) = .ok rest := by
  show skipTextFrom .plain (text ++ '"' :: rest) = .ok rest
  induction h with
  | nil => rfl
  | plain h _ ih => exact (skipTextFrom_plain h).trans ih
  | short h _ ih => exact (skipTextFrom_short h).trans ih
  | @unit n digits text spells _ ih =>
    show skipTextFrom (.unit 4) (digits ++ text ++ '"' :: rest) = _
    rw [List.append_assoc, skipTextFrom_unit spells]
    exact ih

end Passing

section Quoting

theorem hexDigits_four : ∀ n < 32, hexDigits 4 n =
    ['0', '0', Nat.digitChar (n / 16), Nat.digitChar (n % 16)] := by
  decide

theorem hexValue?_digitChar : ∀ digit < 16, hexValue? (Nat.digitChar digit) = some digit := by
  decide

theorem spellsUnit_hexDigits {n : Nat} (h : n < 32) : SpellsUnit n (hexDigits 4 n) := by
  have spells : SpellsUnit (16 * (16 * (16 * 0 + 0) + n / 16) + n % 16)
      ['0', '0', Nat.digitChar (n / 16), Nat.digitChar (n % 16)] :=
    .digits (by rfl) (by rfl) (hexValue?_digitChar _ (by omega)) (hexValue?_digitChar _ (by omega))
  rwa [← hexDigits_four n h, show 16 * (16 * (16 * 0 + 0) + n / 16) + n % 16 = n by omega] at spells

theorem spellsChar_escapeChar (c : Char) : SpellsChar c (escapeChar c) := by
  unfold escapeChar
  split
  case h_8 _ hquote hslash _ _ _ _ _ =>
    split
    · rename_i hcontrol
      have spells := SpellsChar.unit (spellsUnit_hexDigits hcontrol)
        (by simp [isLowHalf]; omega) (by simp [isHighHalf]; omega)
      rwa [Char.ofNat_toNat] at spells
    · rename_i hvisible
      exact .plain ⟨fun h => hquote h, fun h => hslash h, by omega⟩
  all_goals exact .short rfl

theorem spellsText_escape (text : List Char) : SpellsText text (text.flatMap escapeChar) := by
  induction text with
  | nil => exact .nil
  | cons c text ih =>
    rw [List.flatMap_cons]
    exact .cons (spellsChar_escapeChar c) ih

theorem quoteText_append (text : String) (rest : List Char) :
    quoteText text ++ rest = '"' :: (text.toList.flatMap escapeChar ++ '"' :: rest) := by
  simp [quoteText]

end Quoting

end NodeAttestation.Json
