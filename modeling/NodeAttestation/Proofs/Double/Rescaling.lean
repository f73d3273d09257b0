import NodeAttestation.Json.Number
import NodeAttestation.Proofs.Double.Shortest

/-!
# What a double comes back as

The shortest decimal of a double rounds to it, but a reader that scales the digits rounds more than
once.
-/

namespace NodeAttestation

namespace Double

/-- What a reader makes of a decimal in a JSON text: all its digits as one number, and the power of
ten to scale it by. Behind a whole number stands one more nought. -/
def Decimal.spelled (d : Decimal) : Nat × Int :=
  if (d.digits.length : Int) ≤ d.point ∧ d.point ≤ 16 then
    (d.significand * 10 ^ (d.place.toNat + 1), -1)
  else (d.significand, d.place)

/-- What a finite double is read as once it has been written to a JSON text. -/
def reread (x : Double) : Double :=
  if x.magnitude = 0 then x
  else
    let spelled := (x.shortest .even).spelled
    let y := (Json.scale (.ofNat spelled.1) spelled.2).getD infinity
    if x.isNegative then y.neg else y

section Scaling

open Json (scale)

theorem magnitude_ofMagnitude {magnitude : Nat} (negative : Bool) (h : magnitude ≤ infinite) :
    (ofMagnitude negative magnitude).magnitude = magnitude := by
  have hlt : magnitude < signBit := Nat.lt_of_le_of_lt h (by decide)
  rw [Double.magnitude, toNat_ofMagnitude negative h]
  cases negative
  · rw [if_neg Bool.false_ne_true, Nat.add_zero, Nat.mod_eq_of_lt hlt]
  · rw [if_pos rfl, Nat.add_mod_right, Nat.mod_eq_of_lt hlt]

/-- A double is made of its sign and its magnitude bits. -/
theorem ofMagnitude_magnitude (x : Double) : ofMagnitude x.isNegative x.magnitude = x := by
  have hlt := x.bits.toNat_lt
  have hbits : x.magnitude + (if x.isNegative then signBit else 0) = x.bits.toNat := by
    rw [Double.magnitude, isNegative, signBit]
    by_cases hsign : 2 ^ 63 ≤ x.bits.toNat
    · rw [if_pos (by simpa using hsign)]
      omega
    · rw [if_neg (by simpa using hsign)]
      omega
  rw [ofMagnitude, hbits, UInt64.ofNat_toNat]

theorem scale_isSome_of_neg (x : Double) {exponent : Int} (h : exponent < 0) :
    (scale x exponent).isSome = true := by
  fun_induction scale x exponent with
  | case1 x exponent small nonneg => omega
  | case2 x exponent small nonneg => omega
  | case3 => rfl
  | case4 => rfl
  | case5 x exponent large nonzero nonneg => omega
  | case6 x exponent large nonzero nonneg ih => exact ih (by omega)

theorem scale_of_nonneg {x : Double} {exponent : Nat} (hsmall : exponent ≤ 308)
    (finite : (x.mul (tenToThe exponent)).isFinite = true) :
    scale x exponent = some (x.mul (tenToThe exponent)) := by
  rw [scale, if_pos (by omega), if_pos (by omega), Int.toNat_natCast, if_pos finite]

theorem scale_of_neg {x : Double} {exponent : Nat} (hpos : 0 < exponent)
    (hsmall : exponent ≤ 308) :
    scale x (-(exponent : Int)) = some (x.div (tenToThe exponent)) := by
  rw [scale, if_pos (by omega), if_neg (by omega), Int.natAbs_neg, Int.natAbs_natCast]

theorem isFinite_mul_iff (x y : Double) :
    (x.mul y).isFinite = true ↔
      nearest (x.absSteps * y.absSteps) (stepsPerOne * stepsPerOne) < infinite := by
  rw [mul, isFinite, magnitude_ofMagnitude _ (nearest_le _ _), decide_eq_true_eq]

/-- Smaller numbers scaled by smaller powers stay finite where larger ones do. -/
theorem scale_isSome_of_le {n most exponent largest : Nat} (hn : n ≤ most)
    (hexponent : exponent ≤ largest) (hsmall : largest ≤ 308)
    (finite : ((ofNat most).mul (tenToThe largest)).isFinite = true) :
    (scale (ofNat n) exponent).isSome = true := by
  rw [scale_of_nonneg (Nat.le_trans hexponent hsmall)]
  · rfl
  · rw [isFinite_mul_iff] at finite ⊢
    refine Nat.lt_of_le_of_lt (nearest_mono (Nat.mul_pos stepsPerOne_pos stepsPerOne_pos) ?_) finite
    refine Nat.mul_le_mul (absSteps_ofNat_mono hn) (absSteps_ofNat_mono ?_)
    exact Nat.pow_le_pow_right (by decide) hexponent

end Scaling

section Overflow

open Json (scale)

/-- Twice the largest number of steps that rounds to a finite double below the largest. -/
def highest : Nat := stepsOf (infinite - 2) + stepsOf (infinite - 1)

theorem isFinite_of_lt_highest : ∀ k < 17,
    ((ofNat (highest / (2 * 10 ^ (292 + k) * stepsPerOne))).mul
      (tenToThe (292 + k))).isFinite = true := by
  decide +kernel

theorem shortestFrom_largest :
    shortestFrom .even (infinite - 1) (pointOf (stepsOf (infinite - 1))) 17 1 =
      ⟨"17976931348623157".toList, 309⟩ := by
  decide +kernel

theorem scale_largest : (scale (ofNat 17976931348623157) 292).isSome = true := by
  have finite : ((ofNat 17976931348623157).mul (tenToThe 292)).isFinite = true := by
    decide +kernel
  exact scale_isSome_of_le (Nat.le_refl _) (Nat.le_refl _) (by decide) finite

theorem Decimal.Denotes.significand_pos {d : Decimal} {magnitude : Nat}
    (denotes : d.Denotes magnitude) : 0 < d.significand := by
  obtain ⟨c, rest, heq, hc⟩ := denotes.head
  have all := denotes.allDigits
  rw [heq, allDigits_cons] at all
  have hle := le_ofDigitChars rest all.1 hc
  rw [← heq] at hle
  exact Nat.lt_of_lt_of_le (Nat.pow_pos (by decide)) hle

theorem Decimal.Denotes.le_highest {d : Decimal} {magnitude exponent : Nat}
    (denotes : d.Denotes magnitude) (hplace : d.place = exponent)
    (h : magnitude < infinite - 1) :
    d.significand * (2 * 10 ^ exponent * stepsPerOne) ≤ highest := by
  have hle := denotes.roundsTo.le_highest
  rw [hplace, Int.toNat_natCast, Int.toNat_eq_zero.2 (by omega), Nat.pow_zero, Nat.mul_one] at hle
  calc
    d.significand * (2 * 10 ^ exponent * stepsPerOne)
    _ = 2 * (d.significand * 10 ^ exponent * stepsPerOne) := by
      rw [Nat.mul_assoc 2, Nat.mul_left_comm, Nat.mul_assoc]
    _ ≤ stepsOf magnitude + stepsOf (magnitude + 1) := hle
    _ ≤ highest := Nat.add_le_add (stepsOf_mono (by omega)) (stepsOf_mono (by omega))

theorem scale_isSome_of_denotes {d : Decimal} {magnitude exponent : Nat}
    (denotes : d.Denotes magnitude) (hplace : d.place = exponent)
    (h : magnitude < infinite - 1) : (scale (ofNat d.significand) exponent).isSome = true := by
  have hle := denotes.le_highest hplace h
  have hunit := stepsPerOne_pos
  by_cases hsmall : exponent ≤ 291
  · refine scale_isSome_of_le denotes.significand_le hsmall (by decide) ?_
    decide +kernel
  · have hlarge : exponent < 309 := by
      refine Nat.lt_of_not_le fun hlarge => ?_
      have hbeyond : highest < 2 * 10 ^ 309 * stepsPerOne := by decide +kernel
      have hpow : 2 * 10 ^ 309 * stepsPerOne ≤ 2 * 10 ^ exponent * stepsPerOne :=
        Nat.mul_le_mul_right _ (Nat.mul_le_mul_left _ (Nat.pow_le_pow_right (by decide) hlarge))
      have hone := Nat.le_mul_of_pos_left (2 * 10 ^ exponent * stepsPerOne) denotes.significand_pos
      omega
    obtain ⟨k, rfl⟩ := Nat.exists_eq_add_of_le (show 292 ≤ exponent by omega)
    refine scale_isSome_of_le ?_ (Nat.le_refl _) (by omega)
      (isFinite_of_lt_highest k (by omega))
    rw [Nat.le_div_iff_mul_le]
    · exact hle
    · exact Nat.mul_pos (Nat.mul_pos (by decide) (Nat.pow_pos (by decide))) hunit

/-- No double is too large to be read once it has been written. -/
theorem scale_spelled_isSome {x : Double} (finite : x.isFinite = true) (hpos : 0 < x.magnitude) :
    (scale (.ofNat (x.shortest .even).spelled.1) (x.shortest .even).spelled.2).isSome = true := by
  have denotes := denotes_shortest .even hpos
  rw [isFinite, decide_eq_true_eq] at finite
  rw [Decimal.spelled]
  split
  · exact scale_isSome_of_neg _ (show (-1 : Int) < 0 by decide)
  · by_cases hplace : (x.shortest .even).place < 0
    · exact scale_isSome_of_neg _ hplace
    · obtain ⟨exponent, hexponent⟩ := Int.eq_ofNat_of_zero_le (Int.not_lt.1 hplace)
      by_cases hlargest : x.magnitude = infinite - 1
      · have heq : x.shortest .even = ⟨"17976931348623157".toList, 309⟩ := by
          rw [shortest, absSteps, hlargest, shortestFrom_largest]
        rw [heq]
        exact scale_largest
      · dsimp only
        rw [hexponent]
        exact scale_isSome_of_denotes denotes hexponent (by omega)

end Overflow

section Exactness

open Json (scale)

variable {magnitude num den : Nat}

theorem roundsTo_self (hpos : 0 < magnitude) (hden : 0 < den)
    (same : stepsOf magnitude * den = num * stepsPerOne) : RoundsTo magnitude num den := by
  obtain ⟨k, s, split, hs⟩ := exists_isSplit magnitude
  have hnext := stepsOf_succ split hs
  have habove : stepsOf magnitude < stepsOf (magnitude + 1) := by
    rw [hnext]
    exact Nat.lt_add_of_pos_right (Nat.two_pow_pos k)
  have hbelow : stepsOf (magnitude - 1) < stepsOf magnitude := by
    have hgap := stepsOf_le_gap_below hpos
    have hvalue := stepsOf_pos hpos
    omega
  have hlow := Nat.mul_lt_mul_of_pos_right hbelow hden
  have hhigh := Nat.mul_lt_mul_of_pos_right habove hden
  rw [same] at hlow hhigh
  constructor
  all_goals
    rw [Nat.add_mul, same]
    omega

/-- Integers of 53 bits are doubles. -/
theorem absSteps_ofNat_exact {n : Nat} (h : n < 2 ^ 53) :
    (ofNat n).absSteps = n * stepsPerOne := by
  rw [absSteps_ofNat]
  by_cases hzero : n = 0
  · rw [hzero]
    decide +kernel
  · have hlog : n.log2 < 53 := (Nat.log2_lt hzero).2 h
    have hlow := Nat.mul_le_mul_right (2 ^ (52 - n.log2)) (Nat.log2_self_le hzero)
    have hhigh := Nat.mul_lt_mul_of_pos_right (Nat.lt_log2_self (n := n))
      (Nat.two_pow_pos (52 - n.log2))
    rw [← Nat.pow_add, show n.log2 + (52 - n.log2) = 52 by omega] at hlow
    rw [← Nat.pow_add, show n.log2 + 1 + (52 - n.log2) = 53 by omega] at hhigh
    have split : IsSplit ((1022 + n.log2) * 2 ^ 52 + n * 2 ^ (52 - n.log2)) (1022 + n.log2)
        (n * 2 ^ (52 - n.log2)) :=
      ⟨rfl, .inr hlow, Nat.le_of_lt hhigh⟩
    have hsteps := split.stepsOf_eq
    rw [Nat.mul_assoc, ← Nat.pow_add,
      show 52 - n.log2 + (1022 + n.log2) = 1074 by omega, ← stepsPerOne] at hsteps
    have hnearest : nearest n 1 = (1022 + n.log2) * 2 ^ 52 + n * 2 ^ (52 - n.log2) := by
      refine nearest_of_roundsTo (roundsTo_self ?_ Nat.one_pos ?_) Nat.one_pos ?_ ?_
      · omega
      · rw [hsteps, Nat.mul_one]
      · omega
      · rw [infinite]
        omega
    rw [hnearest, hsteps]

theorem absSteps_tenToThe : ∀ exponent ≤ 22,
    (tenToThe exponent).absSteps = 10 ^ exponent * stepsPerOne := by
  decide +kernel

/-- A double is kept if its digits make an integer of 53 bits and the power of ten is a double as
well, for then it is rounded once. -/
def IsShort (x : Double) : Prop :=
  (x.shortest .even).spelled.1 < 2 ^ 53 ∧ (x.shortest .even).spelled.2.natAbs ≤ 22

theorem Decimal.Denotes.roundsTo_spelled {d : Decimal} (denotes : d.Denotes magnitude) :
    RoundsTo magnitude (d.spelled.1 * 10 ^ d.spelled.2.toNat) (10 ^ (-d.spelled.2).toNat) := by
  have rounds := denotes.roundsTo
  rw [spelled]
  split
  · rename_i hwhole
    have hplace : 0 ≤ d.place := by
      rw [place]
      omega
    rw [Int.toNat_eq_zero.2 (show -d.place ≤ 0 by omega)] at rounds
    refine rounds.congr Nat.one_pos (Nat.pow_pos (by decide)) ?_
    simp [Nat.pow_succ, Nat.mul_assoc]
  · exact rounds

theorem isNegative_ofNat (n : Nat) : (ofNat n).isNegative = false :=
  isNegative_ofMagnitude (nearest_le n 1)

theorem mul_tenToThe {n exponent : Nat} (hn : n < 2 ^ 53) (hexponent : exponent ≤ 22)
    (hpos : 0 < magnitude) (finite : magnitude < infinite)
    (rounds : RoundsTo magnitude (n * 10 ^ exponent) 1) :
    (ofNat n).mul (tenToThe exponent) = ofMagnitude false magnitude := by
  have hunit := Nat.mul_pos stepsPerOne_pos stepsPerOne_pos
  have hnearest : nearest (n * stepsPerOne * (10 ^ exponent * stepsPerOne))
      (stepsPerOne * stepsPerOne) = magnitude := by
    refine nearest_of_roundsTo (rounds.congr Nat.one_pos hunit ?_) hunit hpos finite
    rw [Nat.mul_one, Nat.mul_mul_mul_comm]
  rw [mul, isNegative_ofNat, tenToThe, isNegative_ofNat, ← tenToThe, absSteps_ofNat_exact hn,
    absSteps_tenToThe exponent hexponent, hnearest]
  rfl

theorem div_tenToThe {n exponent : Nat} (hn : n < 2 ^ 53) (hexponent : exponent ≤ 22)
    (hpos : 0 < magnitude) (finite : magnitude < infinite)
    (rounds : RoundsTo magnitude n (10 ^ exponent)) :
    (ofNat n).div (tenToThe exponent) = ofMagnitude false magnitude := by
  have hpow := Nat.pow_pos (n := exponent) (show 0 < 10 by decide)
  have hunit := Nat.mul_pos hpow stepsPerOne_pos
  have hnearest : nearest (n * stepsPerOne) (10 ^ exponent * stepsPerOne) = magnitude := by
    refine nearest_of_roundsTo (rounds.congr hpow hunit ?_) hunit hpos finite
    rw [Nat.mul_comm (10 ^ exponent), Nat.mul_assoc]
  rw [div, isNegative_ofNat, tenToThe, isNegative_ofNat, ← tenToThe, absSteps_ofNat_exact hn,
    absSteps_tenToThe exponent hexponent, hnearest]
  rfl

theorem reread_eq_self {x : Double} (finite : x.isFinite = true) (short : x.IsShort) :
    x.reread = x := by
  by_cases hzero : x.magnitude = 0
  · rw [reread, if_pos hzero]
  · have hpos := Nat.pos_of_ne_zero hzero
    have rounds := (denotes_shortest .even hpos).roundsTo_spelled
    obtain ⟨hdigits, hplace⟩ := short
    rw [isFinite, decide_eq_true_eq] at finite
    have hscale : scale (ofNat (x.shortest .even).spelled.1) (x.shortest .even).spelled.2 =
        some (ofMagnitude false x.magnitude) := by
      generalize (x.shortest .even).spelled = spelled at rounds hdigits hplace ⊢
      obtain ⟨n, exponent⟩ := spelled
      dsimp only at rounds hdigits hplace ⊢
      by_cases hsign : 0 ≤ exponent
      · obtain ⟨k, rfl⟩ := Int.eq_ofNat_of_zero_le hsign
        rw [Int.toNat_natCast, Int.toNat_eq_zero.2 (by omega)] at rounds
        have hmul := mul_tenToThe hdigits (by omega) hpos finite rounds
        rw [scale_of_nonneg (by omega), hmul]
        rw [hmul, isFinite, magnitude_ofMagnitude _ (Nat.le_of_lt finite)]
        exact decide_eq_true finite
      · obtain ⟨k, hk, rfl⟩ : ∃ k : Nat, 0 < k ∧ exponent = -(k : Int) :=
          ⟨exponent.natAbs, by omega, by omega⟩
        rw [Int.neg_neg, Int.toNat_natCast, Int.toNat_eq_zero.2 (by omega), Nat.pow_zero,
          Nat.mul_one] at rounds
        rw [scale_of_neg hk (by omega), div_tenToThe hdigits (by omega) hpos finite rounds]
    have hx := x.ofMagnitude_magnitude
    rw [reread, if_neg hzero]
    simp only [hscale, Option.getD_some]
    cases hsign : x.isNegative with
    | false =>
      rw [hsign] at hx
      exact hx
    | true =>
      rw [hsign] at hx
      rw [if_pos rfl, neg, isNegative_ofMagnitude (Nat.le_of_lt finite),
        magnitude_ofMagnitude _ (Nat.le_of_lt finite)]
      exact hx

end Exactness

end Double

end NodeAttestation
