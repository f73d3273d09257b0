import NodeAttestation.Proofs.Digits

/-! # What the digits of a number are read as. -/

namespace NodeAttestation.Json

/-- A text that cannot go on with what stands before it if that is a number. -/
def EndsNumber (rest : List Char) : Prop :=
  ∀ c ∈ rest.head?, c.isDigit = false ∧ c ≠ '.' ∧ c ≠ 'e' ∧ c ≠ 'E'

/-- The digits of a whole number: nought stands alone or not in front. -/
def IsWhole (digits : List Char) : Prop :=
  digits = ['0'] ∨ ∃ c rest, digits = c :: rest ∧ c ≠ '0' ∧ AllDigits digits

section Parts

variable {digits whole rest : List Char}

theorem IsWhole.allDigits (h : IsWhole whole) : AllDigits whole := by
  rcases h with rfl | ⟨_, _, _, _, all⟩
  · simp
  · exact all

theorem IsWhole.ne_nil (h : IsWhole whole) : whole ≠ [] := by
  rcases h with rfl | ⟨_, _, rfl, _⟩ <;> simp

theorem isWhole_toDigits (n : Nat) : IsWhole (Nat.toDigits 10 n) := by
  by_cases h : n = 0
  · exact .inl (by rw [h, Nat.toDigits_zero])
  · obtain ⟨c, rest, heq, hc⟩ := head?_toDigits (Nat.pos_of_ne_zero h)
    exact .inr ⟨c, rest, heq, hc, allDigits_toDigits n⟩

theorem EndsNumber.noDigitNext (ends : EndsNumber rest) : NoDigitNext rest :=
  fun c hc => (ends c hc).1

theorem someDigits_append (hne : digits ≠ []) (all : AllDigits digits) (ends : NoDigitNext rest) :
    someDigits (digits ++ rest) = .ok (digits, rest) := by
  have htake := takeWhile_isDigit all ends
  have hdrop := dropWhile_isDigit all ends
  obtain ⟨c, tail, rfl⟩ := List.exists_cons_of_ne_nil hne
  have hc := (allDigits_cons.1 all).1
  rw [List.cons_append] at htake hdrop ⊢
  simp [someDigits, splitDigits, htake, hdrop, hc]

theorem wholePart_append (h : IsWhole whole) (ends : NoDigitNext rest) :
    wholePart (whole ++ rest) = .ok (whole, rest) := by
  rw [wholePart, someDigits_append h.ne_nil h.allDigits ends]
  rcases h with rfl | ⟨c, tail, rfl, hc, _⟩
  · rfl
  · simp only [Bind.bind, Except.bind]
    split
    · rename_i heq
      cases heq
      exact absurd rfl hc
    · rfl

theorem fractionPart_append (hne : digits ≠ []) (all : AllDigits digits)
    (ends : NoDigitNext rest) :
    fractionPart ('.' :: digits ++ rest) = .ok (some digits, rest) := by
  rw [List.cons_append, fractionPart, someDigits_append hne all ends]
  rfl

theorem fractionPart_of_ne (h : '.' ∉ rest.head?) : fractionPart rest = .ok (none, rest) := by
  cases rest with
  | nil => rfl
  | cons c rest =>
    unfold fractionPart
    split
    · simp_all
    · rfl

theorem exponentPart_signedText (n : Int) (ends : NoDigitNext rest) :
    exponentPart ('e' :: Double.signedText n ++ rest) = .ok (some n, rest) := by
  have hread := someDigits_append Nat.toDigits_ne_nil (allDigits_toDigits n.natAbs) ends
  have hvalue : digitsValue (Nat.toDigits 10 n.natAbs) = n.natAbs := Nat.ofDigitChars_ten_toDigits
  rw [Double.signedText]
  split
  · rename_i hsign
    simp only [List.cons_append, exponentPart, beq_self_eq_true, Bool.true_or, if_true, hread,
      Bind.bind, Except.bind, hvalue]
    rw [Int.ofNat_natAbs_of_nonpos (Int.le_of_lt hsign), Int.neg_neg]
  · rename_i hsign
    simp only [List.cons_append, exponentPart, beq_self_eq_true, Bool.true_or, if_true, hread,
      Bind.bind, Except.bind, hvalue, Bool.false_eq_true, if_false]
    rw [Int.natAbs_of_nonneg (Int.not_lt.1 hsign)]

theorem exponentPart_of_ends (ends : EndsNumber rest) : exponentPart rest = .ok (none, rest) := by
  cases rest with
  | nil => rfl
  | cons c rest =>
    obtain ⟨-, -, hlower, hupper⟩ := ends c rfl
    simp [exponentPart, hlower, hupper]

end Parts

namespace Numeral

/-- A number as it is written, without its sign. -/
def text (n : Numeral) : List Char :=
  n.whole ++ ((n.fraction.map ('.' :: ·)).getD [] ++
    (n.exponent.map fun e => 'e' :: Double.signedText e).getD [])

/-- The digits of a number are such that it can be read. -/
structure IsReadable (n : Numeral) : Prop where
  whole : IsWhole n.whole
  fraction : ∀ digits ∈ n.fraction, digits ≠ [] ∧ AllDigits digits

/-- All digits taken together. -/
def significand (n : Numeral) : Nat := Nat.ofDigitChars 10 (n.whole ++ n.fraction.getD []) 0

/-- The power of ten that belongs to the last digit. -/
def place (n : Numeral) : Int := n.exponent.getD 0 - (n.fraction.getD []).length

variable {n : Numeral} {rest : List Char}

theorem exponentPart_text (ends : EndsNumber rest) :
    exponentPart ((n.exponent.map fun e => 'e' :: Double.signedText e).getD [] ++ rest) =
      .ok (n.exponent, rest) := by
  cases n.exponent with
  | none => simpa using exponentPart_of_ends ends
  | some e => simpa using exponentPart_signedText e ends.noDigitNext

theorem noDigitNext_exponent (ends : EndsNumber rest) :
    NoDigitNext ((n.exponent.map fun e => 'e' :: Double.signedText e).getD [] ++ rest) := by
  cases n.exponent with
  | none => simpa using ends.noDigitNext
  | some e => exact noDigitNext_cons (by decide)

theorem noPoint_exponent (ends : EndsNumber rest) :
    '.' ∉ ((n.exponent.map fun e => 'e' :: Double.signedText e).getD [] ++ rest).head? := by
  cases n.exponent with
  | none =>
    intro hpoint
    exact (ends _ (by simpa using hpoint)).2.1 rfl
  | some e => simp

theorem numeral_text (readable : n.IsReadable) (ends : EndsNumber rest) :
    numeral n.negative (n.text ++ rest) = .ok (n, rest) := by
  have hexponent := exponentPart_text (n := n) ends
  have hdigits := noDigitNext_exponent (n := n) ends
  have hpoint := noPoint_exponent (n := n) ends
  obtain ⟨negative, whole, fraction, exponent⟩ := n
  obtain ⟨hwhole, hfraction⟩ := readable
  simp only [text, List.append_assoc] at hexponent hdigits hpoint ⊢
  cases fraction with
  | none =>
    have hread := wholePart_append hwhole hdigits
    simp only [Option.map_none, Option.getD_none, List.nil_append]
    simp only [numeral, hread, Bind.bind, Except.bind, fractionPart_of_ne hpoint, hexponent]
  | some digits =>
    obtain ⟨hne, all⟩ := hfraction digits rfl
    have hpart := fractionPart_append hne all hdigits
    have ends : NoDigitNext ('.' :: digits ++
        ((exponent.map fun e => 'e' :: Double.signedText e).getD [] ++ rest)) :=
      noDigitNext_cons (by decide)
    have hread := wholePart_append hwhole ends
    simp only [Option.map_some, Option.getD_some]
    simp only [numeral, hread, Bind.bind, Except.bind, hpart, hexponent]

theorem le_ofDigitChars_init (digits : List Char) (start : Nat) :
    start ≤ Nat.ofDigitChars 10 digits start := by
  rw [Nat.ofDigitChars_eq_ofDigitChars_zero]
  exact Nat.le_trans (Nat.le_mul_of_pos_left _ (Nat.pow_pos (by decide))) (Nat.le_add_right _ _)

/-- Digits that fit are taken, all of them. -/
theorem absorb_eq {digits : List Char} {start : Nat}
    (fits : Nat.ofDigitChars 10 digits start < 2 ^ 64) :
    absorb start digits = (Nat.ofDigitChars 10 digits start, []) := by
  induction digits generalizing start with
  | nil => rfl
  | cons c digits ih =>
    rw [Nat.ofDigitChars_cons] at fits ⊢
    have hnext := Nat.lt_of_le_of_lt (le_ofDigitChars_init digits _) fits
    rw [absorb, if_pos hnext, ih fits]

theorem value?_integer (hsign : n.negative = false) (hfraction : n.fraction = none)
    (hexponent : n.exponent = none) (fits : n.significand < 2 ^ 64) :
    n.value? = some (.integer n.significand) := by
  rw [significand, hfraction, Option.getD_none, List.append_nil] at fits ⊢
  simp [value?, absorb_eq fits, hsign, hfraction, hexponent]

/-- A number that is not an integer is the scaled significand. -/
theorem value?_scaled (hinexact : n.fraction.isSome ∨ n.exponent.isSome)
    (fits : n.significand < 2 ^ 64) :
    n.value? = (scale (.ofNat n.significand) n.place).map fun x =>
      .double (if n.negative then x.neg else x) := by
  rw [significand, Nat.ofDigitChars_append] at fits ⊢
  have hwhole : absorb 0 n.whole = (Nat.ofDigitChars 10 n.whole 0, []) :=
    absorb_eq (Nat.lt_of_le_of_lt (le_ofDigitChars_init _ _) fits)
  have hall := absorb_eq fits
  rw [value?, place, hwhole]
  obtain ⟨negative, whole, fraction, exponent⟩ := n
  cases fraction with
  | none =>
    cases exponent with
    | none => simp at hinexact
    | some e => simp [absorb]
  | some digits =>
    simp only [Option.getD_some] at hall ⊢
    cases exponent with
    | none => simp [hall]
    | some e => simp [hall, Int.sub_eq_add_neg, Int.add_comm]

end Numeral

end NodeAttestation.Json
