import NodeAttestation.Proofs.Double.Rounding

/-! # How far the doubles are apart, and what is rounded to each of them. -/

namespace NodeAttestation.Double

section Binades

variable {magnitude k s : Nat}

/-- Magnitude bits as a significand of 53 bits at most and how far it is shifted. -/
structure IsSplit (magnitude k s : Nat) : Prop where
  magnitude_eq : magnitude = k * 2 ^ 52 + s
  le_significand : k = 0 ∨ 2 ^ 52 ≤ s
  significand_le : s ≤ 2 ^ 53

theorem exists_isSplit (magnitude : Nat) : ∃ k s, IsSplit magnitude k s ∧ s < 2 ^ 53 := by
  by_cases h : magnitude < 2 ^ 52
  · exact ⟨0, magnitude, ⟨by omega, .inl rfl, by omega⟩, by omega⟩
  · refine ⟨magnitude / 2 ^ 52 - 1, magnitude % 2 ^ 52 + 2 ^ 52, ⟨?_, .inr ?_, ?_⟩, ?_⟩
    all_goals omega

/-- A significand of 2 ^ 53 is that of the next binade, shifted back. -/
theorem IsSplit.stepsOf_eq (split : IsSplit magnitude k s) : stepsOf magnitude = s * 2 ^ k := by
  obtain ⟨rfl, hlow, hhigh⟩ := split
  by_cases hsmall : k * 2 ^ 52 + s < 2 ^ 52
  · have hk : k = 0 := by omega
    rw [stepsOf, if_pos hsmall, hk]
    omega
  · rw [stepsOf, if_neg hsmall]
    by_cases hnext : s = 2 ^ 53
    · have hdiv : (k * 2 ^ 52 + s) / 2 ^ 52 - 1 = k + 1 := by omega
      have hmod : (k * 2 ^ 52 + s) % 2 ^ 52 = 0 := by omega
      rw [hdiv, hmod, hnext, Nat.pow_succ' (n := k), ← Nat.mul_assoc]
    · have hdiv : (k * 2 ^ 52 + s) / 2 ^ 52 - 1 = k := by omega
      have hmod : 2 ^ 52 + (k * 2 ^ 52 + s) % 2 ^ 52 = s := by omega
      rw [hdiv, hmod]

theorem IsSplit.succ (split : IsSplit magnitude k s) (h : s < 2 ^ 53) :
    IsSplit (magnitude + 1) k (s + 1) := by
  obtain ⟨rfl, hlow, -⟩ := split
  exact ⟨by omega, by omega, h⟩

/-- A number of 53 bits may be shifted at will. -/
theorem exists_stepsOf_eq (h : s < 2 ^ 53) (k : Nat) :
    ∃ magnitude, stepsOf magnitude = s * 2 ^ k := by
  induction k generalizing s with
  | zero =>
    have split : IsSplit s 0 s := ⟨by omega, .inl rfl, Nat.le_of_lt h⟩
    exact ⟨s, split.stepsOf_eq⟩
  | succ k ih =>
    by_cases hfull : 2 ^ 52 ≤ s
    · have split : IsSplit ((k + 1) * 2 ^ 52 + s) (k + 1) s := ⟨rfl, .inr hfull, Nat.le_of_lt h⟩
      exact ⟨_, split.stepsOf_eq⟩
    · obtain ⟨magnitude, hsteps⟩ := ih (s := s * 2) (by omega)
      refine ⟨magnitude, ?_⟩
      rw [hsteps, Nat.mul_assoc, ← Nat.pow_succ']

theorem stepsOf_succ (split : IsSplit magnitude k s) (h : s < 2 ^ 53) :
    stepsOf (magnitude + 1) = stepsOf magnitude + 2 ^ k := by
  rw [(split.succ h).stepsOf_eq, split.stepsOf_eq, Nat.succ_mul]

/-- The gap below a double is that above it, but for the first of a binade, where it is half of
that. -/
theorem stepsOf_pred (split : IsSplit magnitude k s) (h : s < 2 ^ 53) (hpos : 0 < magnitude) :
    (k = 0 ∨ 2 ^ 52 < s) ∧ stepsOf (magnitude - 1) + 2 ^ k = stepsOf magnitude ∨
      s = 2 ^ 52 ∧ ∃ j, k = j + 1 ∧ stepsOf (magnitude - 1) + 2 ^ j = stepsOf magnitude := by
  obtain ⟨heq, hlow, -⟩ := split
  have split : IsSplit magnitude k s := ⟨heq, hlow, Nat.le_of_lt h⟩
  by_cases hinner : k = 0 ∨ 2 ^ 52 < s
  · have hprev : IsSplit (magnitude - 1) k (s - 1) := ⟨by omega, by omega, by omega⟩
    have hnext := stepsOf_succ hprev (by omega)
    rw [Nat.sub_add_cancel hpos] at hnext
    exact .inl ⟨hinner, hnext.symm⟩
  · obtain ⟨j, rfl⟩ : ∃ j, k = j + 1 := Nat.exists_eq_add_one.2 (by omega)
    have hprev : IsSplit (magnitude - 1) j (2 ^ 53 - 1) := ⟨by omega, by omega, by omega⟩
    have hnext := stepsOf_succ hprev (by omega)
    rw [Nat.sub_add_cancel hpos] at hnext
    exact .inr ⟨by omega, j, rfl, hnext.symm⟩

theorem stepsOf_le_gap_above (magnitude : Nat) :
    stepsOf magnitude < 2 ^ 53 * (stepsOf (magnitude + 1) - stepsOf magnitude) := by
  obtain ⟨k, s, split, h⟩ := exists_isSplit magnitude
  rw [stepsOf_succ split h, Nat.add_sub_cancel_left, split.stepsOf_eq]
  exact Nat.mul_lt_mul_of_pos_right h (Nat.two_pow_pos k)

theorem stepsOf_le_gap_below (hpos : 0 < magnitude) :
    stepsOf magnitude ≤ 2 ^ 53 * (stepsOf magnitude - stepsOf (magnitude - 1)) := by
  obtain ⟨k, s, split, h⟩ := exists_isSplit magnitude
  rcases stepsOf_pred split h hpos with ⟨-, hgap⟩ | ⟨hs, j, rfl, hgap⟩
  · have hgap : stepsOf magnitude - stepsOf (magnitude - 1) = 2 ^ k :=
      Nat.sub_eq_of_eq_add' hgap.symm
    rw [hgap, split.stepsOf_eq]
    exact Nat.mul_le_mul_right _ (Nat.le_of_lt h)
  · have hgap : stepsOf magnitude - stepsOf (magnitude - 1) = 2 ^ j :=
      Nat.sub_eq_of_eq_add' hgap.symm
    rw [hgap, split.stepsOf_eq, hs]
    apply Nat.le_of_eq
    rw [Nat.pow_succ' (n := j), ← Nat.mul_assoc]

theorem stepsPerOne_pos : 0 < stepsPerOne := by decide +kernel

theorem stepsOf_pos (hpos : 0 < magnitude) : 0 < stepsOf magnitude := by
  have hone : stepsOf 1 = 1 := by decide
  have := stepsOf_mono (show 1 ≤ magnitude from hpos)
  omega

end Binades

section RoundsTo

/-- The quotient of two numbers lies no farther from a double than from the next ones, and midway
only if the double is even. -/
structure RoundsTo (magnitude num den : Nat) : Prop where
  lowest_le : (stepsOf (magnitude - 1) + stepsOf magnitude) * den ≤ 2 * (num * stepsPerOne)
  le_highest : 2 * (num * stepsPerOne) ≤ (stepsOf magnitude + stepsOf (magnitude + 1)) * den
  even_of_lowest : (stepsOf (magnitude - 1) + stepsOf magnitude) * den = 2 * (num * stepsPerOne) →
    magnitude % 2 = 0
  even_of_highest : 2 * (num * stepsPerOne) = (stepsOf magnitude + stepsOf (magnitude + 1)) * den →
    magnitude % 2 = 0

variable {magnitude num den : Nat}

theorem roundHalfEven_eq {s : Nat} (hlow : 2 * (s * den) ≤ 2 * num + den)
    (hhigh : 2 * num ≤ 2 * (s * den) + den) (hpos : 0 < den)
    (tie : 2 * (s * den) = 2 * num + den ∨ 2 * num = 2 * (s * den) + den → s % 2 = 0) :
    roundHalfEven num den = s := by
  have hnum := Nat.div_add_mod num den
  have hmod := Nat.mod_lt num hpos
  rw [Nat.mul_comm] at hnum
  have hle : num / den ≤ s := by
    refine Nat.le_of_not_lt fun hlt => ?_
    have := Nat.mul_le_mul_right den (Nat.succ_le_of_lt hlt)
    rw [Nat.succ_mul] at this
    omega
  have hge : s ≤ num / den + 1 := by
    refine Nat.le_of_not_lt fun hlt => ?_
    have := Nat.mul_le_mul_right den (Nat.succ_le_of_lt hlt)
    rw [Nat.succ_mul, Nat.succ_mul] at this
    omega
  rw [roundHalfEven]
  rcases Nat.lt_or_eq_of_le hle with hlt | heq
  · have hs : s = num / den + 1 := by omega
    rw [hs, Nat.add_one_mul (num / den)] at hlow hhigh tie
    split
    · omega
    · split
      · exact hs.symm
      · have := tie (by omega)
        omega
  · rw [← heq] at hlow hhigh tie
    split
    · exact heq
    · split
      · omega
      · have := tie (by omega)
        omega

theorem roundedBits_eq {quotient k : Nat} (hlow : k = 0 ∨ 2 ^ 52 * 2 ^ k ≤ quotient)
    (hhigh : quotient < 2 ^ 53 * 2 ^ k) : roundedBits quotient = k := by
  have hshift : roundedBits quotient ≤ k := by
    refine Nat.le_of_not_lt fun hlt => ?_
    have hbits := le_of_roundedBits (Nat.zero_lt_of_lt hlt)
    have := Nat.mul_le_mul_left (2 ^ 52) (Nat.pow_le_pow_right (n := 2) (by decide) hlt)
    rw [Nat.pow_succ' (n := k), ← Nat.mul_assoc] at this
    omega
  rcases hlow with rfl | hlow
  · exact Nat.le_zero.1 hshift
  · refine Nat.le_antisymm hshift (Nat.le_of_not_lt fun hlt => ?_)
    have hbits := lt_of_roundedBits quotient
    have := Nat.mul_le_mul_left (2 ^ 52) (Nat.pow_le_pow_right (n := 2) (by decide) hlt)
    rw [Nat.pow_succ' (n := roundedBits quotient), ← Nat.mul_assoc] at this
    omega

theorem nearest_eq_of_near {k s : Nat} (hden : 0 < den)
    (hfirst : k = 0 ∨ 2 ^ 52 * (den * 2 ^ k) ≤ num * stepsPerOne)
    (hlast : num * stepsPerOne < 2 ^ 53 * (den * 2 ^ k))
    (hlow : 2 * (s * (den * 2 ^ k)) ≤ 2 * (num * stepsPerOne) + den * 2 ^ k)
    (hhigh : 2 * (num * stepsPerOne) ≤ 2 * (s * (den * 2 ^ k)) + den * 2 ^ k)
    (tie : 2 * (s * (den * 2 ^ k)) = 2 * (num * stepsPerOne) + den * 2 ^ k ∨
      2 * (num * stepsPerOne) = 2 * (s * (den * 2 ^ k)) + den * 2 ^ k → s % 2 = 0) :
    nearest num den = Nat.min infinite (k * 2 ^ 52 + s) := by
  have hbits : roundedBits (num * stepsPerOne / den) = k := by
    apply roundedBits_eq
    · refine hfirst.imp_right fun hfirst => (Nat.le_div_iff_mul_le hden).2 ?_
      rwa [Nat.mul_assoc, Nat.mul_comm (2 ^ k)]
    · rw [Nat.div_lt_iff_lt_mul hden, Nat.mul_assoc, Nat.mul_comm (2 ^ k)]
      exact hlast
  rw [nearest_eq, hbits,
    roundHalfEven_eq hlow hhigh (Nat.mul_pos hden (Nat.two_pow_pos k)) tie]

/-- What rounds to a double is nearest to it. -/
theorem nearest_of_roundsTo (rounds : RoundsTo magnitude num den) (hden : 0 < den)
    (hpos : 0 < magnitude) (finite : magnitude < infinite) : nearest num den = magnitude := by
  obtain ⟨k, s, split, hs⟩ := exists_isSplit magnitude
  have hnext := stepsOf_succ split hs
  have hsteps := split.stepsOf_eq
  have hpred := stepsOf_pred split hs hpos
  obtain ⟨hmagnitude, -, -⟩ := split
  have hmin : Nat.min infinite magnitude = magnitude := Nat.min_eq_right (Nat.le_of_lt finite)
  have hunit := Nat.mul_pos hden (Nat.two_pow_pos k)
  have hwhole : stepsOf magnitude * den = s * (den * 2 ^ k) := by
    rw [hsteps, Nat.mul_assoc, Nat.mul_comm den]
  have habove : stepsOf (magnitude + 1) * den = s * (den * 2 ^ k) + den * 2 ^ k := by
    rw [hnext, Nat.add_mul, hwhole, Nat.mul_comm (2 ^ k)]
  obtain ⟨hlow, hhigh, tieLow, tieHigh⟩ := rounds
  rw [Nat.add_mul] at hlow hhigh tieLow tieHigh
  rw [hwhole] at hlow hhigh tieLow tieHigh
  rw [habove] at hhigh tieHigh
  rcases hpred with ⟨hinner, hbelow⟩ | ⟨rfl, j, rfl, hbelow⟩
  · have hbelow : stepsOf (magnitude - 1) * den + den * 2 ^ k = s * (den * 2 ^ k) := by
      rw [← hwhole, ← hbelow, Nat.add_mul, Nat.mul_comm (2 ^ k)]
    have hfirst : k = 0 ∨ 2 ^ 52 * (den * 2 ^ k) ≤ num * stepsPerOne := by
      refine hinner.imp_right fun hs => ?_
      have := Nat.mul_le_mul_right (den * 2 ^ k) (Nat.succ_le_of_lt hs)
      rw [Nat.succ_mul] at this
      omega
    have hlast : num * stepsPerOne < 2 ^ 53 * (den * 2 ^ k) := by
      have := Nat.mul_le_mul_right (den * 2 ^ k) (Nat.succ_le_of_lt hs)
      rw [Nat.succ_mul] at this
      omega
    rw [nearest_eq_of_near hden (s := s) hfirst hlast (by omega) (by omega) (by omega),
      ← hmagnitude, hmin]
  · have hbelow : stepsOf (magnitude - 1) * den + den * 2 ^ j = 2 ^ 52 * (den * 2 ^ (j + 1)) := by
      rw [← hwhole, ← hbelow, Nat.add_mul, Nat.mul_comm (2 ^ j)]
    have hdouble : den * 2 ^ (j + 1) = 2 * (den * 2 ^ j) := by
      rw [Nat.pow_succ', Nat.mul_left_comm]
    by_cases hbinade : 2 ^ 52 * (den * 2 ^ (j + 1)) ≤ num * stepsPerOne
    · rw [nearest_eq_of_near (s := 2 ^ 52) hden (.inr hbinade) (by omega) (by omega) (by omega)
        (by omega), ← hmagnitude, hmin]
    · -- The quotient lies in the binade below and is rounded up out of it.
      have hunit := Nat.mul_pos hden (Nat.two_pow_pos j)
      have hfirst : 2 ^ 52 * (den * 2 ^ j) ≤ num * stepsPerOne := by omega
      rw [nearest_eq_of_near hden (s := 2 ^ 53) (.inr hfirst) (by omega) (by omega) (by omega)
        (by omega)]
      have hsame : j * 2 ^ 52 + 2 ^ 53 = magnitude := by omega
      rw [hsame, hmin]

/-- Rounding does not pass a double. -/
theorem nearest_le_of_le (hden : 0 < den) (h : num * stepsPerOne ≤ stepsOf magnitude * den) :
    nearest num den ≤ magnitude := by
  obtain ⟨k, s, split, hs⟩ := exists_isSplit magnitude
  rw [split.stepsOf_eq] at h
  have hquotient : num * stepsPerOne / den ≤ s * 2 ^ k := by
    apply Nat.div_le_of_le_mul
    rw [Nat.mul_comm den]
    exact h
  obtain ⟨rfl, hlow, -⟩ := split
  rw [nearest_eq]
  generalize num * stepsPerOne = scaled at h hquotient ⊢
  refine Nat.le_trans (Nat.min_le_right _ _) ?_
  have hbound := lt_of_roundedBits (scaled / den)
  rcases Nat.lt_trichotomy (roundedBits (scaled / den)) k with hlt | heq | hgt
  · -- The significand is full at most, and a full one still lies below the binade of the double.
    have hround : roundHalfEven scaled (den * 2 ^ roundedBits (scaled / den)) ≤ 2 ^ 53 := by
      apply roundHalfEven_le
      rw [Nat.mul_left_comm]
      rw [Nat.div_lt_iff_lt_mul hden] at hbound
      rw [Nat.mul_comm] at hbound
      exact hbound
    omega
  · have hround : roundHalfEven scaled (den * 2 ^ k) ≤ s := by
      rcases Nat.lt_or_eq_of_le h with hlt | hsame
      · apply roundHalfEven_le
        rw [Nat.mul_left_comm, Nat.mul_comm]
        exact hlt
      · have hpow := Nat.mul_pos hden (Nat.two_pow_pos k)
        rw [hsame, Nat.mul_assoc, Nat.mul_comm (2 ^ k)]
        refine Nat.le_of_eq (roundHalfEven_eq ?_ ?_ hpow ?_)
        all_goals omega
    rw [heq]
    omega
  · have hbits := le_of_roundedBits (Nat.zero_lt_of_lt hgt)
    have hpow : 2 ^ 53 * 2 ^ k ≤ 2 ^ 52 * 2 ^ roundedBits (scaled / den) := by
      rw [Nat.pow_succ 2 52, Nat.mul_assoc, ← Nat.pow_succ']
      exact Nat.mul_le_mul_left _ (Nat.pow_le_pow_right (by decide) hgt)
    have hfull := Nat.mul_lt_mul_of_pos_right hs (Nat.two_pow_pos k)
    omega

end RoundsTo

end NodeAttestation.Double
