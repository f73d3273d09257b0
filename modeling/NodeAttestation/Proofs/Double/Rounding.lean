import NodeAttestation.Double.Basic

/-! # Rounding to a double keeps the order of what is rounded. -/

namespace NodeAttestation.Double

section RoundHalfEven

variable {num larger den : Nat}

theorem roundHalfEven_le_succ (num den : Nat) : roundHalfEven num den ≤ num / den + 1 := by
  rw [roundHalfEven]
  split
  · exact Nat.le_succ _
  · split
    · exact Nat.le_refl _
    · have := Nat.mod_lt (num / den) Nat.two_pos
      omega

theorem le_roundHalfEven (num den : Nat) : num / den ≤ roundHalfEven num den := by
  rw [roundHalfEven]
  split
  · exact Nat.le_refl _
  · split
    · exact Nat.le_succ _
    · exact Nat.le_add_right _ _

theorem roundHalfEven_le {bound : Nat} (h : num < bound * den) : roundHalfEven num den ≤ bound := by
  have hden : 0 < den := Nat.pos_of_lt_mul_left h
  exact Nat.le_trans (roundHalfEven_le_succ num den) ((Nat.div_lt_iff_lt_mul hden).2 h)

theorem roundHalfEven_mono (h : num ≤ larger) :
    roundHalfEven num den ≤ roundHalfEven larger den := by
  rcases Nat.lt_or_eq_of_le (Nat.div_le_div_right (c := den) h) with hlt | heq
  · calc
      roundHalfEven num den ≤ num / den + 1 := roundHalfEven_le_succ num den
      _ ≤ larger / den := hlt
      _ ≤ roundHalfEven larger den := le_roundHalfEven larger den
  · have hmod : num % den ≤ larger % den := by
      have hnum := Nat.div_add_mod num den
      have hlarger := Nat.div_add_mod larger den
      rw [← heq] at hlarger
      omega
    rw [roundHalfEven, roundHalfEven, ← heq]
    -- The larger remainder is rounded up wherever the smaller one is.
    repeat' split
    all_goals omega

end RoundHalfEven

section StepsOf

theorem stepsOf_lt (magnitude : Nat) : stepsOf magnitude < 2 ^ 52 * 2 ^ (magnitude / 2 ^ 52) := by
  rw [stepsOf]
  split
  · exact Nat.lt_of_lt_of_le ‹_› (Nat.le_mul_of_pos_right _ (Nat.two_pow_pos _))
  · obtain ⟨exponent, hexponent⟩ : ∃ exponent, magnitude / 2 ^ 52 = exponent + 1 :=
      Nat.exists_eq_add_one.2 (by omega)
    have hfraction := Nat.mod_lt magnitude (Nat.two_pow_pos 52)
    rw [hexponent, Nat.add_sub_cancel]
    calc
      (2 ^ 52 + magnitude % 2 ^ 52) * 2 ^ exponent
      _ < (2 ^ 52 * 2) * 2 ^ exponent :=
        Nat.mul_lt_mul_of_pos_right (by omega) (Nat.two_pow_pos _)
      _ = 2 ^ 52 * 2 ^ (exponent + 1) := by rw [Nat.mul_assoc, ← Nat.pow_succ']

theorem le_stepsOf {magnitude : Nat} (h : 2 ^ 52 ≤ magnitude) :
    2 ^ 52 * 2 ^ (magnitude / 2 ^ 52 - 1) ≤ stepsOf magnitude := by
  rw [stepsOf, if_neg (Nat.not_lt_of_le h)]
  exact Nat.mul_le_mul_right _ (Nat.le_add_right _ _)

theorem stepsOf_mono {magnitude larger : Nat} (h : magnitude ≤ larger) :
    stepsOf magnitude ≤ stepsOf larger := by
  by_cases hsmall : larger < 2 ^ 52
  · rw [stepsOf, stepsOf, if_pos hsmall, if_pos (Nat.lt_of_le_of_lt h hsmall)]
    exact h
  · have hlarger := Nat.le_of_not_lt hsmall
    rcases Nat.lt_or_eq_of_le (Nat.div_le_div_right (c := 2 ^ 52) h) with hlt | heq
    · calc
        stepsOf magnitude ≤ 2 ^ 52 * 2 ^ (magnitude / 2 ^ 52) := Nat.le_of_lt (stepsOf_lt _)
        _ ≤ 2 ^ 52 * 2 ^ (larger / 2 ^ 52 - 1) :=
          Nat.mul_le_mul_left _ (Nat.pow_le_pow_right Nat.two_pos (by omega))
        _ ≤ stepsOf larger := le_stepsOf hlarger
    · have hmagnitude : ¬magnitude < 2 ^ 52 := by omega
      rw [stepsOf, stepsOf, if_neg hsmall, if_neg hmagnitude, heq]
      exact Nat.mul_le_mul_right _ (by omega)

end StepsOf

section Nearest

/-- How many bits of a quotient in steps are rounded away. -/
def roundedBits (quotient : Nat) : Nat := quotient.log2 - 52

theorem nearest_eq (num den : Nat) :
    nearest num den =
      Nat.min infinite (roundedBits (num * stepsPerOne / den) * 2 ^ 52 +
        roundHalfEven (num * stepsPerOne) (den * 2 ^ roundedBits (num * stepsPerOne / den))) := rfl

theorem roundedBits_mono {quotient larger : Nat} (h : quotient ≤ larger) :
    roundedBits quotient ≤ roundedBits larger := by
  by_cases hzero : quotient = 0
  · rw [hzero]
    exact Nat.zero_le _
  · have hpos : larger ≠ 0 := by omega
    exact Nat.sub_le_sub_right
      ((Nat.le_log2 hpos).2 (Nat.le_trans (Nat.log2_self_le hzero) h)) 52

theorem lt_of_roundedBits (quotient : Nat) : quotient < 2 ^ 53 * 2 ^ roundedBits quotient := by
  calc
    quotient < 2 ^ (quotient.log2 + 1) := Nat.lt_log2_self
    _ ≤ 2 ^ (53 + roundedBits quotient) :=
      Nat.pow_le_pow_right Nat.two_pos (by rw [roundedBits]; omega)
    _ = 2 ^ 53 * 2 ^ roundedBits quotient := Nat.pow_add ..

theorem le_of_roundedBits {quotient : Nat} (h : 0 < roundedBits quotient) :
    2 ^ 52 * 2 ^ roundedBits quotient ≤ quotient := by
  have hlog : 52 < quotient.log2 := Nat.lt_of_sub_pos h
  have hpos : quotient ≠ 0 := by
    rintro rfl
    rw [Nat.log2_zero] at hlog
    omega
  calc
    2 ^ 52 * 2 ^ roundedBits quotient = 2 ^ quotient.log2 := by
      rw [← Nat.pow_add, roundedBits]
      congr 1
      omega
    _ ≤ quotient := Nat.log2_self_le hpos

theorem nearest_mono {num larger den : Nat} (hden : 0 < den) (h : num ≤ larger) :
    nearest num den ≤ nearest larger den := by
  have hscaled : num * stepsPerOne ≤ larger * stepsPerOne := Nat.mul_le_mul_right _ h
  rw [nearest_eq, nearest_eq]
  refine Nat.le_min.2 ⟨Nat.min_le_left _ _, Nat.le_trans (Nat.min_le_right _ _) ?_⟩
  generalize num * stepsPerOne = small at hscaled ⊢
  generalize larger * stepsPerOne = large at hscaled ⊢
  have hquotient := Nat.div_le_div_right (c := den) hscaled
  rcases Nat.lt_or_eq_of_le (roundedBits_mono hquotient) with hlt | heq
  · -- The smaller quotient is rounded to less than the first double of the larger one's exponent.
    have hsmall : roundHalfEven small (den * 2 ^ roundedBits (small / den)) ≤ 2 ^ 53 := by
      refine roundHalfEven_le ?_
      have := (Nat.div_lt_iff_lt_mul hden).1 (lt_of_roundedBits (small / den))
      rwa [Nat.mul_assoc, Nat.mul_comm _ den] at this
    have hlarge : 2 ^ 52 ≤ roundHalfEven large (den * 2 ^ roundedBits (large / den)) := by
      refine Nat.le_trans ?_ (le_roundHalfEven _ _)
      rw [Nat.le_div_iff_mul_le (Nat.mul_pos hden (Nat.two_pow_pos _))]
      have := (Nat.le_div_iff_mul_le hden).1 (le_of_roundedBits (Nat.zero_lt_of_lt hlt))
      rwa [Nat.mul_assoc, Nat.mul_comm _ den] at this
    have hstep := Nat.mul_le_mul_right (2 ^ 52) (Nat.succ_le_of_lt hlt)
    omega
  · rw [heq]
    exact Nat.add_le_add_left (roundHalfEven_mono hscaled) _

end Nearest

section Operations

theorem nearest_le (num den : Nat) : nearest num den ≤ infinite := Nat.min_le_left _ _

theorem toNat_ofMagnitude {magnitude : Nat} (negative : Bool) (h : magnitude ≤ infinite) :
    (ofMagnitude negative magnitude).bits.toNat =
      magnitude + if negative then signBit else 0 := by
  rw [infinite] at h
  refine UInt64.toNat_ofNat_of_lt' ?_
  cases negative
  · rw [if_neg Bool.false_ne_true, UInt64.size]
    omega
  · rw [if_pos rfl, signBit, UInt64.size]
    omega

theorem absSteps_ofMagnitude {magnitude : Nat} (negative : Bool) (h : magnitude ≤ infinite) :
    (ofMagnitude negative magnitude).absSteps = stepsOf magnitude := by
  have hlt : magnitude < signBit := Nat.lt_of_le_of_lt h (by decide)
  rw [absSteps, Double.magnitude, toNat_ofMagnitude negative h]
  cases negative
  · rw [if_neg Bool.false_ne_true, Nat.add_zero, Nat.mod_eq_of_lt hlt]
  · rw [if_pos rfl, Nat.add_mod_right, Nat.mod_eq_of_lt hlt]

theorem isNegative_ofMagnitude {magnitude : Nat} (h : magnitude ≤ infinite) :
    (ofMagnitude false magnitude).isNegative = false := by
  have hlt : magnitude < signBit := Nat.lt_of_le_of_lt h (by decide)
  rw [isNegative, toNat_ofMagnitude false h]
  exact decide_eq_false (Nat.not_le_of_lt hlt)

theorem absSteps_ofNat (n : Nat) : (ofNat n).absSteps = stepsOf (nearest n 1) :=
  absSteps_ofMagnitude false (nearest_le n 1)

theorem absSteps_ofNat_mono {n m : Nat} (h : n ≤ m) : (ofNat n).absSteps ≤ (ofNat m).absSteps := by
  rw [absSteps_ofNat, absSteps_ofNat]
  exact stepsOf_mono (nearest_mono Nat.one_pos h)

theorem steps_ofNat (n : Nat) : (ofNat n).steps = (ofNat n).absSteps := by
  have hsign : (ofNat n).isNegative = false := isNegative_ofMagnitude (nearest_le n 1)
  rw [steps, hsign, if_neg Bool.false_ne_true]

theorem absSteps_mul (x y : Double) :
    (x.mul y).absSteps =
      stepsOf (nearest (x.absSteps * y.absSteps) (stepsPerOne * stepsPerOne)) :=
  absSteps_ofMagnitude _ (nearest_le _ _)

theorem floorAbs_mul_mono {x y : Double} (z : Double) (h : x.absSteps ≤ y.absSteps) :
    (x.mul z).floorAbs ≤ (y.mul z).floorAbs := by
  have hone : 0 < stepsPerOne := by decide +kernel
  rw [floorAbs, floorAbs, absSteps_mul, absSteps_mul]
  exact Nat.div_le_div_right
    (stepsOf_mono (nearest_mono (Nat.mul_pos hone hone) (Nat.mul_le_mul_right _ h)))

theorem isNegative_eq_false_of_steps_pos {x : Double} (h : 0 < x.steps) :
    x.isNegative = false := by
  rw [steps] at h
  split at h
  · omega
  · rename_i hsign
    exact Bool.eq_false_iff.2 hsign

theorem steps_pos_of_isPositive {x : Double} (h : x.isPositive = true) : 0 < x.steps := by
  rw [isPositive, Bool.and_eq_true, decide_eq_true_eq] at h
  exact h.2

theorem steps_of_pos {x : Double} (h : 0 < x.steps) : x.steps = x.absSteps := by
  rw [steps, isNegative_eq_false_of_steps_pos h, if_neg Bool.false_ne_true]

theorem absSteps_min {x : Double} {n : Nat} (h : 0 < x.steps) :
    (x.min (ofNat n)).absSteps = Nat.min x.absSteps (ofNat n).absSteps := by
  have hsteps := steps_of_pos h
  rw [Double.min, steps_ofNat, hsteps]
  split
  · exact (Nat.min_eq_right (by omega)).symm
  · exact (Nat.min_eq_left (by omega)).symm

theorem min_ofNat_of_le {n m : Nat} (h : n ≤ m) : (ofNat n).min (ofNat m) = ofNat n := by
  have := absSteps_ofNat_mono h
  rw [Double.min, if_neg]
  rw [steps_ofNat, steps_ofNat]
  omega

end Operations

end NodeAttestation.Double
