import NodeAttestation.Double.Shortest
import NodeAttestation.Proofs.Digits
import NodeAttestation.Proofs.Double.Spacing

/-! # The shortest decimal of a double rounds to it. -/

namespace NodeAttestation.Double

/-- What rounds to a double is a matter of the quotient alone. -/
theorem RoundsTo.congr {magnitude num den other scale : Nat} (rounds : RoundsTo magnitude num den)
    (hden : 0 < den) (hscale : 0 < scale) (same : num * scale = other * den) :
    RoundsTo magnitude other scale := by
  have hvalue (unit : Nat) : 2 * (num * unit) * scale = 2 * (other * unit) * den := by
    calc
      2 * (num * unit) * scale = 2 * unit * (num * scale) := by ac_rfl
      _ = 2 * unit * (other * den) := by rw [same]
      _ = 2 * (other * unit) * den := by ac_rfl
  have hbound (bound : Nat) : bound * scale * den = bound * den * scale := Nat.mul_right_comm ..
  obtain ⟨hlow, hhigh, tieLow, tieHigh⟩ := rounds
  constructor
  · refine Nat.le_of_mul_le_mul_right ?_ hden
    rw [hbound, ← hvalue]
    exact Nat.mul_le_mul_right _ hlow
  · refine Nat.le_of_mul_le_mul_right ?_ hden
    rw [hbound, ← hvalue]
    exact Nat.mul_le_mul_right _ hhigh
  · intro heq
    refine tieLow (Nat.eq_of_mul_eq_mul_right hscale ?_)
    rw [hvalue, ← heq, hbound]
  · intro heq
    refine tieHigh (Nat.eq_of_mul_eq_mul_right hscale ?_)
    rw [hvalue, heq, hbound]

section Grid

variable {tie : Tie} {magnitude multiple : Nat} {grid : Int}

/-- The largest multiple of ten to the `grid` that is not above the absolute value of a double. -/
def multipleBelow (magnitude : Nat) (grid : Int) : Nat :=
  stepsOf magnitude * 10 ^ (-grid).toNat / (stepsPerOne * 10 ^ grid.toNat)

/-- Whether a multiple of ten to the `grid` rounds to a double. -/
def readsBack (magnitude : Nat) (grid : Int) (multiple : Nat) : Bool :=
  let up := 10 ^ (-grid).toNat
  let twice := 2 * multiple * (stepsPerOne * 10 ^ grid.toNat)
  let lowest := (stepsOf (magnitude - 1) + stepsOf magnitude) * up
  let highest := (stepsOf magnitude + stepsOf (magnitude + 1)) * up
  if magnitude % 2 = 0 then lowest ≤ twice && twice ≤ highest
  else lowest < twice && twice < highest

theorem readsBack_iff :
    readsBack magnitude grid multiple = true ↔
      RoundsTo magnitude (multiple * 10 ^ grid.toNat) (10 ^ (-grid).toNat) := by
  have hvalue : 2 * multiple * (stepsPerOne * 10 ^ grid.toNat) =
      2 * (multiple * 10 ^ grid.toNat * stepsPerOne) := by
    rw [Nat.mul_comm stepsPerOne, Nat.mul_assoc, Nat.mul_assoc]
  rw [readsBack, hvalue]
  split
  · rename_i heven
    rw [Bool.and_eq_true, decide_eq_true_eq, decide_eq_true_eq]
    exact ⟨fun h => ⟨h.1, h.2, fun _ => heven, fun _ => heven⟩, fun h => ⟨h.1, h.2⟩⟩
  · rename_i hodd
    rw [Bool.and_eq_true, decide_eq_true_eq, decide_eq_true_eq]
    constructor
    · rintro ⟨hlow, hhigh⟩
      exact ⟨Nat.le_of_lt hlow, Nat.le_of_lt hhigh, fun heq => absurd heq (Nat.ne_of_lt hlow),
        fun heq => absurd heq (Nat.ne_of_lt hhigh)⟩
    · rintro ⟨hlow, hhigh, tieLow, tieHigh⟩
      exact ⟨Nat.lt_of_le_of_ne hlow fun heq => hodd (tieLow heq),
        Nat.lt_of_le_of_ne hhigh fun heq => hodd (tieHigh heq)⟩

theorem readsBack_of_lt {twice : Nat}
    (heq : 2 * (multiple * (stepsPerOne * 10 ^ grid.toNat)) = twice)
    (lowest : (stepsOf (magnitude - 1) + stepsOf magnitude) * 10 ^ (-grid).toNat < twice)
    (highest : twice < (stepsOf magnitude + stepsOf (magnitude + 1)) * 10 ^ (-grid).toNat) :
    readsBack magnitude grid multiple = true := by
  rw [readsBack, Nat.mul_assoc, heq]
  split <;> rw [Bool.and_eq_true, decide_eq_true_eq, decide_eq_true_eq]
  · exact ⟨Nat.le_of_lt lowest, Nat.le_of_lt highest⟩
  · exact ⟨lowest, highest⟩

theorem onGrid?_eq (tie : Tie) (magnitude : Nat) (grid : Int) :
    onGrid? tie magnitude grid =
      let below := multipleBelow magnitude grid
      let midway := (2 * below + 1) * (stepsPerOne * 10 ^ grid.toNat)
      let twice := 2 * (stepsOf magnitude * 10 ^ (-grid).toNat)
      match readsBack magnitude grid below, readsBack magnitude grid (below + 1) with
      | true, false => some below
      | false, true => some (below + 1)
      | true, true =>
        if twice < midway then some below
        else if midway < twice then some (below + 1)
        else match tie with
          | .even => some (below + below % 2)
          | .up => some (below + 1)
      | false, false => none := rfl

theorem onGrid?_cases (h : onGrid? tie magnitude grid = some multiple) :
    readsBack magnitude grid multiple = true ∧ multiple ≤ multipleBelow magnitude grid + 1 := by
  rw [onGrid?_eq] at h
  dsimp only at h
  generalize multipleBelow magnitude grid = below at h ⊢
  split at h
  · rename_i hbelow _
    cases h
    exact ⟨hbelow, Nat.le_succ _⟩
  · rename_i _ habove
    cases h
    exact ⟨habove, Nat.le_refl _⟩
  · rename_i hbelow habove
    have hboth : ∀ k, k = below ∨ k = below + 1 →
        readsBack magnitude grid k = true ∧ k ≤ below + 1 := by
      rintro k (rfl | rfl)
      · exact ⟨hbelow, Nat.le_succ _⟩
      · exact ⟨habove, Nat.le_refl _⟩
    apply hboth
    repeat' split at h
    all_goals
      cases h
      omega
  · cases h

/-- If the gaps of a double are wider than those of the grid, one of its two neighbours there rounds
to it. -/
theorem readsBack_neighbour (below : stepsPerOne * 10 ^ grid.toNat <
      (stepsOf magnitude - stepsOf (magnitude - 1)) * 10 ^ (-grid).toNat)
    (above : stepsPerOne * 10 ^ grid.toNat <
      (stepsOf (magnitude + 1) - stepsOf magnitude) * 10 ^ (-grid).toNat) :
    readsBack magnitude grid (multipleBelow magnitude grid) = true ∨
      readsBack magnitude grid (multipleBelow magnitude grid + 1) = true := by
  have hunit : 0 < stepsPerOne * 10 ^ grid.toNat :=
    Nat.mul_pos stepsPerOne_pos (Nat.pow_pos (by decide))
  have hdiv := Nat.div_add_mod (stepsOf magnitude * 10 ^ (-grid).toNat)
    (stepsPerOne * 10 ^ grid.toNat)
  have hmod := Nat.mod_lt (stepsOf magnitude * 10 ^ (-grid).toNat) hunit
  have hlowest := Nat.add_mul (stepsOf (magnitude - 1)) (stepsOf magnitude) (10 ^ (-grid).toNat)
  have hhighest := Nat.add_mul (stepsOf magnitude) (stepsOf (magnitude + 1)) (10 ^ (-grid).toNat)
  have hnext := Nat.add_one_mul (multipleBelow magnitude grid) (stepsPerOne * 10 ^ grid.toNat)
  rw [← multipleBelow, Nat.mul_comm] at hdiv
  rw [Nat.sub_mul] at below above
  by_cases hnear : 2 * (stepsOf magnitude * 10 ^ (-grid).toNat % (stepsPerOne * 10 ^ grid.toNat)) ≤
      stepsPerOne * 10 ^ grid.toNat
  · refine .inl (readsBack_of_lt rfl ?_ ?_)
    · rw [hlowest]
      omega
    · rw [hhighest]
      omega
  · refine .inr (readsBack_of_lt rfl ?_ ?_)
    · rw [hlowest]
      omega
    · rw [hhighest]
      omega

theorem onGrid?_isSome (tie : Tie) (below : stepsPerOne * 10 ^ grid.toNat <
      (stepsOf magnitude - stepsOf (magnitude - 1)) * 10 ^ (-grid).toNat)
    (above : stepsPerOne * 10 ^ grid.toNat <
      (stepsOf (magnitude + 1) - stepsOf magnitude) * 10 ^ (-grid).toNat) :
    (onGrid? tie magnitude grid).isSome = true := by
  have hneighbour := readsBack_neighbour below above
  rw [onGrid?_eq]
  dsimp only
  rcases hneighbour with h | h
  · rw [h]
    repeat' split
    all_goals simp_all
  · rw [h]
    repeat' split
    all_goals simp_all

end Grid

section Points

variable {magnitude count : Nat}

/-- Powers of ten with exponents that may be negative. -/
theorem pow_toNat_mul (exponent : Int) {n m : Nat} (h : exponent + n = m) :
    10 ^ exponent.toNat * 10 ^ n = 10 ^ m * 10 ^ (-exponent).toNat := by
  rw [← Nat.pow_add, ← Nat.pow_add]
  congr 1
  omega

/-- How many digits there are up to four hundred places behind the point. -/
def placesOf (steps : Nat) : Nat := (Nat.toDigits 10 (steps * 10 ^ 400 / stepsPerOne)).length

theorem pointOf_eq (steps : Nat) : pointOf steps = (placesOf steps : Int) - 400 := rfl

theorem placesOf_pos (steps : Nat) : 0 < placesOf steps := Nat.length_toDigits_pos

theorem lt_of_placesOf (steps : Nat) : steps * 10 ^ 400 < 10 ^ placesOf steps * stepsPerOne := by
  rw [← Nat.div_lt_iff_lt_mul stepsPerOne_pos]
  exact (Nat.length_toDigits_le_iff (by decide) (placesOf_pos steps)).1 (Nat.le_refl _)

theorem le_of_placesOf {steps : Nat} (hpos : 0 < steps) :
    10 ^ placesOf steps * stepsPerOne ≤ 10 * (steps * 10 ^ 400) := by
  have hone : stepsPerOne ≤ 10 ^ 400 := by decide +kernel
  have hquotient : 0 < steps * 10 ^ 400 / stepsPerOne := by
    rw [Nat.div_pos_iff]
    exact ⟨stepsPerOne_pos, Nat.le_trans hone (Nat.le_mul_of_pos_left _ hpos)⟩
  calc
    10 ^ placesOf steps * stepsPerOne
    _ ≤ 10 * (steps * 10 ^ 400 / stepsPerOne) * stepsPerOne :=
      Nat.mul_le_mul_right _ (pow_length_toDigits_le hquotient)
    _ = 10 * (steps * 10 ^ 400 / stepsPerOne * stepsPerOne) := Nat.mul_assoc ..
    _ ≤ 10 * (steps * 10 ^ 400) := Nat.mul_le_mul_left _ (Nat.div_mul_le_self _ _)

/-- The grid of a number of digits is finer than the gaps of a double if there are seventeen. -/
theorem grid_lt_of_le_gap {steps gap : Nat} (hpos : 0 < steps) (hgap : steps ≤ 2 ^ 53 * gap) :
    stepsPerOne * 10 ^ (pointOf steps - 17).toNat < gap * 10 ^ (-(pointOf steps - 17)).toNat := by
  have hplaces := le_of_placesOf hpos
  have hpow := pow_toNat_mul (pointOf steps - 17) (n := 417) (m := placesOf steps)
    (by rw [pointOf_eq]; omega)
  have hscale := Nat.mul_pos stepsPerOne_pos
    (Nat.pow_pos (n := (pointOf steps - 17).toNat) (show 0 < 10 by decide))
  generalize 10 ^ (pointOf steps - 17).toNat = down at hpow hscale ⊢
  generalize 10 ^ (-(pointOf steps - 17)).toNat = up at hpow ⊢
  generalize stepsPerOne = unit at hplaces hscale ⊢
  have hfine : unit * down * 10 ^ 16 ≤ steps * up := by
    refine Nat.le_of_mul_le_mul_right ?_ (Nat.pow_pos (n := 401) (show 0 < 10 by decide))
    calc
      unit * down * 10 ^ 16 * 10 ^ 401 = unit * (down * 10 ^ 417) := by
        rw [Nat.mul_assoc, ← Nat.pow_add, Nat.mul_assoc]
      _ = 10 ^ placesOf steps * unit * up := by
        rw [hpow]
        ac_rfl
      _ ≤ 10 * (steps * 10 ^ 400) * up := Nat.mul_le_mul_right _ hplaces
      _ = steps * up * 10 ^ 401 := by
        rw [Nat.pow_succ' (n := 400)]
        ac_rfl
  have hcoarse : steps * up ≤ 2 ^ 53 * (gap * up) := by
    rw [← Nat.mul_assoc]
    exact Nat.mul_le_mul_right _ hgap
  omega

theorem multipleBelow_lt (magnitude count : Nat) :
    multipleBelow magnitude (pointOf (stepsOf magnitude) - count) < 10 ^ count := by
  have hplaces := lt_of_placesOf (stepsOf magnitude)
  have hpow := pow_toNat_mul (pointOf (stepsOf magnitude) - count) (n := 400 + count)
    (m := placesOf (stepsOf magnitude)) (by rw [pointOf_eq]; omega)
  have hunit := Nat.mul_pos stepsPerOne_pos
    (Nat.pow_pos (n := (pointOf (stepsOf magnitude) - count).toNat) (show 0 < 10 by decide))
  have hup := Nat.pow_pos (n := (-(pointOf (stepsOf magnitude) - count)).toNat)
    (show 0 < 10 by decide)
  rw [multipleBelow, Nat.div_lt_iff_lt_mul hunit]
  generalize 10 ^ (pointOf (stepsOf magnitude) - count).toNat = down at hpow ⊢
  generalize 10 ^ (-(pointOf (stepsOf magnitude) - count)).toNat = up at hpow hup ⊢
  generalize stepsPerOne = unit at hplaces ⊢
  refine Nat.lt_of_mul_lt_mul_right (a := 10 ^ 400) ?_
  calc
    stepsOf magnitude * up * 10 ^ 400 = stepsOf magnitude * 10 ^ 400 * up := Nat.mul_right_comm ..
    _ < 10 ^ placesOf (stepsOf magnitude) * unit * up := Nat.mul_lt_mul_of_pos_right hplaces hup
    _ = unit * (down * (10 ^ 400 * 10 ^ count)) := by
      rw [← Nat.pow_add, hpow]
      ac_rfl
    _ = 10 ^ count * (unit * down) * 10 ^ 400 := by ac_rfl

theorem onGrid?_seventeen (tie : Tie) (hpos : 0 < magnitude) :
    (onGrid? tie magnitude (pointOf (stepsOf magnitude) - 17)).isSome = true :=
  onGrid?_isSome tie (grid_lt_of_le_gap (stepsOf_pos hpos) (stepsOf_le_gap_below hpos))
    (grid_lt_of_le_gap (stepsOf_pos hpos) (Nat.le_of_lt (stepsOf_le_gap_above magnitude)))

end Points

namespace Decimal

/-- All digits taken together. -/
def significand (d : Decimal) : Nat := digitsValue d.digits

/-- The power of ten that belongs to the last digit. -/
def place (d : Decimal) : Int := d.point - d.digits.length

/-- A decimal stands for a double: it rounds to it, and its digits fit 64 bits. -/
structure Denotes (d : Decimal) (magnitude : Nat) : Prop where
  head : ∃ c rest, d.digits = c :: rest ∧ c ≠ '0'
  allDigits : AllDigits d.digits
  significand_le : d.significand ≤ 10 ^ 17
  roundsTo : RoundsTo magnitude (d.significand * 10 ^ d.place.toNat) (10 ^ (-d.place).toNat)

/-- The decimal of a multiple of ten to the `grid`, without noughts at its end. -/
def ofMultiple (multiple : Nat) (grid : Int) : Decimal :=
  ⟨((Nat.toDigits 10 multiple).reverse.dropWhile (· == '0')).reverse,
    grid + (Nat.toDigits 10 multiple).length⟩

theorem exists_zeros (text : List Char) :
    ∃ k, text = List.replicate k '0' ++ text.dropWhile (· == '0') := by
  induction text with
  | nil => exact ⟨0, rfl⟩
  | cons c text ih =>
    by_cases hc : c = '0'
    · obtain ⟨k, hk⟩ := ih
      refine ⟨k + 1, ?_⟩
      rw [hc, List.dropWhile_cons_of_pos (by rfl), List.replicate_succ, List.cons_append, ← hk]
    · exact ⟨0, by simp [hc]⟩

theorem digits_ofMultiple (multiple : Nat) (grid : Int) :
    ∃ k, Nat.toDigits 10 multiple = (ofMultiple multiple grid).digits ++ List.replicate k '0' ∧
      (ofMultiple multiple grid).place = grid + k := by
  obtain ⟨k, hk⟩ := exists_zeros (Nat.toDigits 10 multiple).reverse
  have hdigits : Nat.toDigits 10 multiple =
      (ofMultiple multiple grid).digits ++ List.replicate k '0' := by
    have := congrArg List.reverse hk
    rwa [List.reverse_reverse, List.reverse_append, List.reverse_replicate] at this
  refine ⟨k, hdigits, ?_⟩
  have hlength := congrArg List.length hdigits
  rw [List.length_append, List.length_replicate] at hlength
  rw [place]
  simp only [ofMultiple] at hlength ⊢
  omega

theorem denotes_ofMultiple {multiple magnitude : Nat} {grid : Int} (hpos : 0 < multiple)
    (hle : multiple ≤ 10 ^ 17)
    (rounds : RoundsTo magnitude (multiple * 10 ^ grid.toNat) (10 ^ (-grid).toNat)) :
    (ofMultiple multiple grid).Denotes magnitude := by
  obtain ⟨k, hdigits, hplace⟩ := digits_ofMultiple multiple grid
  have hvalue : multiple = (ofMultiple multiple grid).significand * 10 ^ k := by
    have := congrArg (Nat.ofDigitChars 10 · 0) hdigits
    simp only [Nat.ofDigitChars_ten_toDigits, Nat.ofDigitChars_append,
      Nat.ofDigitChars_replicate_zero] at this
    rw [Nat.mul_comm]
    exact this
  have hpower : 10 ^ k * 10 ^ grid.toNat * 10 ^ (-(grid + k)).toNat =
      10 ^ (grid + k).toNat * 10 ^ (-grid).toNat := by
    rw [← Nat.pow_add, ← Nat.pow_add, ← Nat.pow_add]
    congr 1
    omega
  constructor
  · obtain ⟨c, rest, heq, hc⟩ := head?_toDigits hpos
    rw [heq] at hdigits
    cases hshort : (ofMultiple multiple grid).digits with
    | nil =>
      rw [hshort, List.nil_append] at hdigits
      exact absurd (List.eq_of_mem_replicate (hdigits ▸ List.mem_cons_self)) hc
    | cons first others =>
      rw [hshort, List.cons_append, List.cons.injEq] at hdigits
      exact ⟨first, others, rfl, hdigits.1 ▸ hc⟩
  · have all := allDigits_toDigits multiple
    rw [hdigits, allDigits_append] at all
    exact all.1
  · calc
      (ofMultiple multiple grid).significand
      _ ≤ (ofMultiple multiple grid).significand * 10 ^ k :=
        Nat.le_mul_of_pos_right _ (Nat.pow_pos (by decide))
      _ = multiple := hvalue.symm
      _ ≤ 10 ^ 17 := hle
  · refine rounds.congr (Nat.pow_pos (by decide)) (Nat.pow_pos (by decide)) ?_
    rw [hplace]
    calc
      multiple * 10 ^ grid.toNat * 10 ^ (-(grid + k)).toNat
      _ = (ofMultiple multiple grid).significand *
          (10 ^ k * 10 ^ grid.toNat * 10 ^ (-(grid + k)).toNat) := by
        conv => lhs; rw [hvalue]
        ac_rfl
      _ = _ := by
        rw [hpower]
        ac_rfl

end Decimal

section Shortest

variable {magnitude : Nat}

theorem pos_of_readsBack {multiple : Nat} {grid : Int} (hpos : 0 < magnitude)
    (back : readsBack magnitude grid multiple = true) : 0 < multiple := by
  refine Nat.pos_of_ne_zero ?_
  rintro rfl
  have rounds := (readsBack_iff.1 back).lowest_le
  have := Nat.mul_pos (stepsOf_pos hpos) (Nat.pow_pos (n := (-grid).toNat) (show 0 < 10 by decide))
  rw [Nat.add_mul] at rounds
  omega

/-- The search ends on the grid of seventeen digits at the latest. -/
theorem exists_shortestFrom (tie : Tie) {point : Int} {more : Nat} (count : Nat) (hmore : 0 < more)
    (last : (onGrid? tie magnitude (point - (count + more - 1 : Nat))).isSome = true) :
    ∃ digits multiple, digits < count + more ∧
      onGrid? tie magnitude (point - digits) = some multiple ∧
      shortestFrom tie magnitude point more count = .ofMultiple multiple (point - digits) := by
  induction more generalizing count with
  | zero => omega
  | succ more ih =>
    rw [shortestFrom]
    cases hfound : onGrid? tie magnitude (point - count) with
    | some multiple => exact ⟨count, multiple, by omega, hfound, rfl⟩
    | none =>
      cases more with
      | zero => simp [hfound] at last
      | succ more =>
        have hsame : count + 1 + (more + 1) - 1 = count + (more + 1 + 1) - 1 := by omega
        obtain ⟨digits, multiple, hdigits, hfound, heq⟩ :=
          ih (count + 1) (Nat.succ_pos _) (hsame ▸ last)
        exact ⟨digits, multiple, by omega, hfound, heq⟩

theorem denotes_shortest (tie : Tie) {x : Double} (hpos : 0 < x.magnitude) :
    (x.shortest tie).Denotes x.magnitude := by
  obtain ⟨digits, multiple, hdigits, hfound, heq⟩ :=
    exists_shortestFrom tie 1 (show 0 < 17 by decide) (onGrid?_seventeen tie hpos)
  obtain ⟨back, hle⟩ := onGrid?_cases hfound
  have hlt := multipleBelow_lt x.magnitude digits
  have hpow : 10 ^ digits ≤ 10 ^ 17 := Nat.pow_le_pow_right (by decide) (by omega)
  rw [shortest, absSteps, heq]
  exact Decimal.denotes_ofMultiple (pos_of_readsBack hpos back) (by omega) (readsBack_iff.1 back)

end Shortest

end NodeAttestation.Double
