import NodeAttestation.Json.Reader
import NodeAttestation.Proofs.Double.Rescaling
import NodeAttestation.Proofs.Json.Number

/-! # The text of a double as a number that is read. -/

namespace NodeAttestation.Double

/-- The parts of the text of a decimal. -/
def Decimal.numeral (negative : Bool) (d : Decimal) : Json.Numeral :=
  if -5 < d.point ∧ d.point ≤ 16 then
    if d.point ≤ 0 then ⟨negative, ['0'], some (zeros d.point.natAbs ++ d.digits), none⟩
    else if (d.digits.length : Int) ≤ d.point then
      ⟨negative, d.digits ++ zeros (d.point.toNat - d.digits.length), some ['0'], none⟩
    else
      ⟨negative, d.digits.take d.point.toNat, some (d.digits.drop d.point.toNat), none⟩
  else
    ⟨negative, d.digits.take 1,
      if (d.digits.drop 1).isEmpty then none else some (d.digits.drop 1), some (d.point - 1)⟩

variable {x : Double} {d : Decimal} {negative : Bool} {magnitude : Nat}

theorem jsonText_eq (hpos : 0 < x.magnitude) :
    x.jsonText = x.signed ((x.shortest .even).numeral x.isNegative).text := by
  rw [jsonText, if_neg (by omega)]
  generalize x.shortest .even = d
  simp only [Bool.and_eq_true, decide_eq_true_eq]
  rw [Decimal.numeral]
  split
  · rw [Decimal.positional]
    split
    · simp [Json.Numeral.text]
    · split
      · rw [if_pos (by omega)]
        simp [Json.Numeral.text]
      · rw [if_neg (by omega)]
        simp [Json.Numeral.text]
  · rw [Decimal.scientific]
    split <;> simp [Json.Numeral.text]

theorem numeral_isReadable (denotes : d.Denotes magnitude) :
    (d.numeral negative).IsReadable := by
  obtain ⟨c, rest, heq, hc⟩ := denotes.head
  have all := denotes.allDigits
  have hne : d.digits ≠ [] := by simp [heq]
  rw [Decimal.numeral]
  split
  · split
    · refine ⟨.inl rfl, ?_⟩
      rintro _ ⟨⟩
      exact ⟨by simp [hne], allDigits_append.2 ⟨allDigits_replicate _, all⟩⟩
    · split
      · refine ⟨.inr ⟨c, rest ++ zeros _, by rw [heq, List.cons_append], hc, ?_⟩, ?_⟩
        · exact allDigits_append.2 ⟨all, allDigits_replicate _⟩
        · rintro _ ⟨⟩
          simp
      · rename_i hlow hhigh
        obtain ⟨k, hk⟩ : ∃ k, d.point.toNat = k + 1 := Nat.exists_eq_add_one.2 (by omega)
        refine ⟨.inr ⟨c, rest.take k, by rw [heq, hk, List.take_succ_cons], hc, all.take _⟩, ?_⟩
        rintro _ ⟨⟩
        refine ⟨?_, all.drop _⟩
        rw [ne_eq, List.drop_eq_nil_iff]
        omega
  · refine ⟨.inr ⟨c, [], by rw [heq, List.take_succ_cons, List.take_zero], hc, all.take 1⟩, ?_⟩
    intro digits hdigits
    dsimp only at hdigits
    split at hdigits
    · cases hdigits
    · rename_i hsome
      cases hdigits
      exact ⟨by simpa using hsome, all.drop 1⟩

theorem numeral_negative (negative : Bool) (d : Decimal) :
    (d.numeral negative).negative = negative := by
  rw [Decimal.numeral]
  repeat' split
  all_goals rfl

theorem numeral_inexact (negative : Bool) (d : Decimal) :
    (d.numeral negative).fraction.isSome ∨ (d.numeral negative).exponent.isSome := by
  rw [Decimal.numeral]
  repeat' split
  all_goals simp

theorem Decimal.Denotes.length_pos (denotes : d.Denotes magnitude) : 0 < d.digits.length := by
  obtain ⟨c, rest, heq, -⟩ := denotes.head
  simp [heq]

theorem numeral_significand (denotes : d.Denotes magnitude) :
    (d.numeral negative).significand = d.spelled.1 := by
  have hlength := denotes.length_pos
  have hvalue : d.significand = Nat.ofDigitChars 10 d.digits 0 := rfl
  rw [Decimal.numeral, Decimal.spelled]
  split
  · split
    · rw [if_neg (by omega), hvalue]
      simp [Json.Numeral.significand, Nat.ofDigitChars_append, Nat.ofDigitChars_cons, zeros]
    · split
      · have hzeros : d.place.toNat = d.point.toNat - d.digits.length := by
          rw [Decimal.place]
          omega
        rw [if_pos (by omega), hzeros, hvalue]
        simp [Json.Numeral.significand, Nat.ofDigitChars_append, Nat.ofDigitChars_cons, zeros]
        rw [Nat.pow_succ]
        ac_rfl
      · rw [if_neg (by omega), hvalue]
        simp [Json.Numeral.significand]
  · have hlarge : ¬((d.digits.length : Int) ≤ d.point ∧ d.point ≤ 16) := by omega
    rw [if_neg hlarge, hvalue]
    cases d.digits with
    | nil => rfl
    | cons c rest => cases rest <;> simp [Json.Numeral.significand]

theorem numeral_place (denotes : d.Denotes magnitude) :
    (d.numeral negative).place = d.spelled.2 := by
  have hlength := denotes.length_pos
  rw [Decimal.numeral, Decimal.spelled]
  split
  · split
    · rw [if_neg (by omega), Decimal.place]
      simp only [Json.Numeral.place, zeros, Option.getD_some, Option.getD_none,
        List.length_append, List.length_replicate]
      omega
    · split
      · rw [if_pos (by omega)]
        rfl
      · rw [if_neg (by omega), Decimal.place]
        simp [Json.Numeral.place]
        omega
  · have hlarge : ¬((d.digits.length : Int) ≤ d.point ∧ d.point ≤ 16) := by omega
    rw [if_neg hlarge, Decimal.place]
    cases heq : d.digits with
    | nil => simp [heq] at hlength
    | cons c rest =>
      cases rest with
      | nil => simp [Json.Numeral.place]
      | cons next rest =>
        simp [Json.Numeral.place]
        omega

theorem spelled_lt (denotes : d.Denotes magnitude) : d.spelled.1 < 2 ^ 64 := by
  have hle := denotes.significand_le
  rw [Decimal.spelled]
  split
  · rename_i hwhole
    have hlt : d.significand < 10 ^ d.digits.length := ofDigitChars_lt denotes.allDigits
    have hpow : 10 ^ d.digits.length * 10 ^ (d.place.toNat + 1) ≤ 10 ^ 17 := by
      rw [← Nat.pow_add]
      refine Nat.pow_le_pow_right (by decide) ?_
      rw [Decimal.place]
      omega
    have hprod := Nat.mul_lt_mul_of_pos_right hlt
      (Nat.pow_pos (n := d.place.toNat + 1) (show 0 < 10 by decide))
    dsimp only
    omega
  · dsimp only
    omega

theorem value?_zero (negative : Bool) :
    (⟨negative, ['0'], some ['0'], none⟩ : Json.Numeral).value? =
      some (.double (ofMagnitude negative 0)) := by
  have hscale : Json.scale (ofNat 0) (-1) = some zero :=
    (scale_of_neg Nat.one_pos (by decide)).trans (by decide +kernel)
  have hvalue := Json.Numeral.value?_scaled (n := ⟨negative, ['0'], some ['0'], none⟩)
    (.inl rfl) (by cases negative <;> decide)
  refine hvalue.trans ?_
  rw [show Json.Numeral.significand _ = 0 from rfl, show Json.Numeral.place _ = -1 from rfl, hscale]
  cases negative
  · rfl
  · decide +kernel

/-- The text of a finite double is that of a number, and that number is what comes back. -/
theorem exists_numeral (finite : x.isFinite = true) :
    ∃ n : Json.Numeral, n.negative = x.isNegative ∧ n.IsReadable ∧ x.jsonText = x.signed n.text ∧
      n.value? = some (.double x.reread) := by
  by_cases hzero : x.magnitude = 0
  · refine ⟨⟨x.isNegative, ['0'], some ['0'], none⟩, rfl, ⟨.inl rfl, ?_⟩, ?_, ?_⟩
    · rintro _ ⟨⟩
      simp
    · rw [jsonText, if_pos hzero]
      rfl
    · rw [value?_zero, reread, if_pos hzero, ← hzero, ofMagnitude_magnitude]
  · have hpos := Nat.pos_of_ne_zero hzero
    have denotes := denotes_shortest .even hpos
    refine ⟨(x.shortest .even).numeral x.isNegative, numeral_negative _ _,
      numeral_isReadable denotes, jsonText_eq hpos, ?_⟩
    · obtain ⟨y, hy⟩ := Option.isSome_iff_exists.1 (scale_spelled_isSome finite hpos)
      rw [Json.Numeral.value?_scaled (numeral_inexact _ _)
          (numeral_significand denotes ▸ spelled_lt denotes),
        numeral_significand denotes, numeral_place denotes, numeral_negative, hy, reread, if_neg hzero]
      simp [hy]

end NodeAttestation.Double
