import NodeAttestation.Json.Number
import NodeAttestation.Time.Stamp

/-! # Decimal digits, as they are written and as they are read. -/

namespace NodeAttestation

def AllDigits (text : List Char) : Prop := ∀ c ∈ text, c.isDigit = true

/-- A text that does not go on with a digit. -/
def NoDigitNext (text : List Char) : Prop := ∀ c ∈ text.head?, c.isDigit = false

section Digits

variable {digits more rest : List Char} {c : Char} {n : Nat}

theorem isDigit_iff : c.isDigit = true ↔ 48 ≤ c.toNat ∧ c.toNat ≤ 57 := by
  simp only [Char.isDigit, Bool.and_eq_true, decide_eq_true_eq, UInt32.le_iff_toNat_le]
  rfl

theorem isBlank_of_isDigit (h : c.isDigit = true) : Text.isBlank c = false := by
  rw [isDigit_iff] at h
  simp only [Text.isBlank, Bool.or_eq_false_iff, Bool.and_eq_false_iff, decide_eq_false_iff_not,
    beq_eq_false_iff_ne]
  omega

theorem noDigitNext_nil : NoDigitNext [] := fun _ h => nomatch h

theorem noDigitNext_cons (h : c.isDigit = false) : NoDigitNext (c :: rest) := by
  rintro _ ⟨⟩
  exact h

@[simp]
theorem allDigits_nil : AllDigits [] := fun _ h => nomatch h

@[simp]
theorem allDigits_cons : AllDigits (c :: digits) ↔ c.isDigit = true ∧ AllDigits digits := by
  simp [AllDigits]

@[simp]
theorem allDigits_append : AllDigits (digits ++ more) ↔ AllDigits digits ∧ AllDigits more := by
  simp only [AllDigits, List.mem_append, or_imp, forall_and]

theorem AllDigits.take (all : AllDigits digits) (k : Nat) : AllDigits (digits.take k) :=
  fun c hc => all c (List.mem_of_mem_take hc)

theorem AllDigits.drop (all : AllDigits digits) (k : Nat) : AllDigits (digits.drop k) :=
  fun c hc => all c (List.mem_of_mem_drop hc)

theorem allDigits_replicate (k : Nat) : AllDigits (List.replicate k '0') := by
  intro c hc
  rw [List.eq_of_mem_replicate hc]
  rfl

theorem allDigits_toDigits (n : Nat) : AllDigits (Nat.toDigits 10 n) := fun _ hc =>
  Nat.isDigit_of_mem_toDigits (by decide) (by decide) hc

theorem takeWhile_isDigit (all : AllDigits digits) (ends : NoDigitNext rest) :
    (digits ++ rest).takeWhile Char.isDigit = digits := by
  rw [List.takeWhile_append_of_pos all]
  cases rest with
  | nil => simp
  | cons c rest => simp [ends c rfl]

theorem dropWhile_isDigit (all : AllDigits digits) (ends : NoDigitNext rest) :
    (digits ++ rest).dropWhile Char.isDigit = rest := by
  rw [List.dropWhile_append_of_pos all]
  cases rest with
  | nil => simp
  | cons c rest => simp [ends c rfl]

/-- A number with a leading digit that is not nought has no other writing. -/
theorem head?_toDigits (h : 0 < n) : ∃ c rest, Nat.toDigits 10 n = c :: rest ∧ c ≠ '0' := by
  induction n using Nat.strongRecOn with
  | ind n ih =>
    by_cases hn : n < 10
    · refine ⟨n.digitChar, [], Nat.toDigits_of_lt_base hn, ?_⟩
      rw [ne_eq, Nat.digitChar_eq_zero]
      omega
    · have hle : 10 ≤ n := Nat.le_of_not_lt hn
      obtain ⟨c, rest, heq, hc⟩ := ih (n / 10) (by omega) (by omega)
      rw [Nat.toDigits_of_base_le (by decide) hle, heq]
      exact ⟨c, _, rfl, hc⟩

theorem ofDigitChars_lt (all : AllDigits digits) :
    Nat.ofDigitChars 10 digits 0 < 10 ^ digits.length := by
  induction digits with
  | nil => simp
  | cons c digits ih =>
    obtain ⟨hc, all⟩ := allDigits_cons.1 all
    have hdigit := isDigit_iff.1 hc
    have hrest := ih all
    rw [Nat.ofDigitChars_cons, Nat.ofDigitChars_eq_ofDigitChars_zero, List.length_cons,
      Nat.pow_succ]
    have hhead : 10 * 0 + (c.toNat - '0'.toNat) ≤ 9 := by
      have : '0'.toNat = 48 := rfl
      omega
    have := Nat.mul_le_mul_left (10 ^ digits.length) hhead
    omega

theorem le_ofDigitChars (digits : List Char) (hc : c.isDigit = true) (hzero : c ≠ '0') :
    10 ^ digits.length ≤ Nat.ofDigitChars 10 (c :: digits) 0 := by
  have hdigit := isDigit_iff.1 hc
  have hne : c.toNat ≠ 48 := fun h => hzero (Char.toNat_inj.1 h)
  rw [Nat.ofDigitChars_cons, Nat.ofDigitChars_eq_ofDigitChars_zero]
  have hhead : 1 ≤ 10 * 0 + (c.toNat - '0'.toNat) := by
    have : '0'.toNat = 48 := rfl
    omega
  exact Nat.le_trans (Nat.le_mul_of_pos_right _ hhead) (Nat.le_add_right _ _)

theorem pow_length_toDigits_le (h : 0 < n) : 10 ^ (Nat.toDigits 10 n).length ≤ 10 * n := by
  obtain ⟨c, rest, heq, hc⟩ := head?_toDigits h
  have hdigit := (allDigits_cons.1 (heq ▸ allDigits_toDigits n)).1
  have hle := le_ofDigitChars rest hdigit hc
  rw [← heq, Nat.ofDigitChars_ten_toDigits] at hle
  rw [heq, List.length_cons, Nat.pow_succ']
  exact Nat.mul_le_mul_left 10 hle

end Digits

namespace Stamp

theorem allDigits_padded (width n : Nat) : AllDigits (padded width n) :=
  allDigits_append.2 ⟨allDigits_replicate _, allDigits_toDigits n⟩

theorem ofDigitChars_padded (width n : Nat) : Nat.ofDigitChars 10 (padded width n) 0 = n := by
  simp [padded, Nat.ofDigitChars_append]

theorem le_length_padded (width n : Nat) : width ≤ (padded width n).length := by
  rw [padded, List.length_append, List.length_replicate]
  omega

theorem length_padded {width n : Nat} (hwidth : 0 < width) (h : n < 10 ^ width) :
    (padded width n).length = width := by
  have := (Nat.length_toDigits_le_iff (b := 10) (by decide) hwidth).2 h
  rw [padded, List.length_append, List.length_replicate]
  omega

end Stamp

end NodeAttestation
