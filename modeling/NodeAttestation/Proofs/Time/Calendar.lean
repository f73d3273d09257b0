import NodeAttestation.Time.Calendar

/-! # Every day has one date. -/

namespace NodeAttestation.Date

section March

variable {dayOfEra year : Int}

/-- The year of an era that a day belongs to, both counted from March. -/
def marchYear (dayOfEra : Int) : Int :=
  (dayOfEra - dayOfEra / 1460 + dayOfEra / 36524 - dayOfEra / 146096) / 365

def marchDay (dayOfEra : Int) : Int :=
  dayOfEra - (365 * marchYear dayOfEra + marchYear dayOfEra / 4 - marchYear dayOfEra / 100)

def marchMonth (dayOfEra : Int) : Int := (5 * marchDay dayOfEra + 2) / 153

theorem marchYear_bounds (h : 0 ≤ dayOfEra ∧ dayOfEra < 146097) :
    0 ≤ marchYear dayOfEra ∧ marchYear dayOfEra < 400 := by
  rw [marchYear]
  omega

theorem century_eq (h : 0 ≤ dayOfEra ∧ dayOfEra < 146097) :
    marchYear dayOfEra / 100 = dayOfEra / 36524 - dayOfEra / 146096 := by
  have hcentury : dayOfEra / 36524 = 0 ∨ dayOfEra / 36524 = 1 ∨ dayOfEra / 36524 = 2 ∨
      dayOfEra / 36524 = 3 ∨ dayOfEra / 36524 = 4 := by
    omega
  rw [marchYear]
  omega

theorem marchDay_bounds (h : 0 ≤ dayOfEra ∧ dayOfEra < 146097) :
    0 ≤ marchDay dayOfEra ∧ marchDay dayOfEra ≤ 365 := by
  have hcentury := century_eq h
  rw [marchDay]
  rw [marchYear] at hcentury ⊢
  omega

/-- The last day of February is the last of its year. -/
theorem isLeapYear_of_marchDay (h : 0 ≤ dayOfEra ∧ dayOfEra < 146097) (era : Int)
    (last : marchDay dayOfEra = 365) :
    isLeapYear (marchYear dayOfEra + era * 400 + 1) = true := by
  have hcentury := century_eq h
  have hbounds := marchYear_bounds h
  rw [marchDay] at last
  have hfourth : marchYear dayOfEra / 4 < dayOfEra / 1460 := by
    rw [marchYear] at hcentury last ⊢
    omega
  have hthird : marchYear dayOfEra % 4 = 3 := by omega
  -- The last year of a century is only leap in the last century of an era.
  have hlast : marchYear dayOfEra % 100 = 99 → dayOfEra / 146096 = 1 := by omega
  simp only [isLeapYear, Bool.and_eq_true, beq_iff_eq, Bool.or_eq_true, bne_iff_ne]
  omega

end March

section Days

variable (days : Int)

def eraOf : Int := (days + epochOffset) / 146097

def dayOfEra : Int := (days + epochOffset) % 146097

theorem dayOfEra_bounds : 0 ≤ dayOfEra days ∧ dayOfEra days < 146097 := by
  rw [dayOfEra]
  omega

theorem marchMonth_bounds : 0 ≤ marchMonth (dayOfEra days) ∧ marchMonth (dayOfEra days) < 12 := by
  have := marchDay_bounds (dayOfEra_bounds days)
  rw [marchMonth]
  omega

/-- The first ten months from March are those of the year in which they begin. -/
theorem ofDays_eq :
    ofDays days =
      if marchMonth (dayOfEra days) < 10 then
        ⟨marchYear (dayOfEra days) + eraOf days * 400, (marchMonth (dayOfEra days) + 3).toNat,
          (marchDay (dayOfEra days) - (153 * marchMonth (dayOfEra days) + 2) / 5 + 1).toNat⟩
      else
        ⟨marchYear (dayOfEra days) + eraOf days * 400 + 1,
          (marchMonth (dayOfEra days) - 9).toNat,
          (marchDay (dayOfEra days) - (153 * marchMonth (dayOfEra days) + 2) / 5 + 1).toNat⟩ := by
  have hmonth := marchMonth_bounds days
  unfold ofDays
  dsimp only
  rw [← dayOfEra, ← eraOf, ← marchYear, ← marchDay, ← marchMonth]
  split
  · rw [if_neg (by omega), Int.add_zero]
  · rw [if_pos (by omega)]

/-- The days of a month are fewer than those until the next. -/
theorem dayOfMonth_pos :
    (153 * marchMonth (dayOfEra days) + 2) / 5 ≤ marchDay (dayOfEra days) := by
  rw [marchMonth]
  omega

theorem toDays_ofDays : (ofDays days).toDays = days := by
  have hmonth := marchMonth_bounds days
  have hyear := marchYear_bounds (dayOfEra_bounds days)
  have hday := dayOfMonth_pos days
  have hera : days = eraOf days * 146097 + dayOfEra days - epochOffset := by
    rw [eraOf, dayOfEra]
    omega
  have hdayOfEra : dayOfEra days = 365 * marchYear (dayOfEra days) +
      marchYear (dayOfEra days) / 4 - marchYear (dayOfEra days) / 100 +
        marchDay (dayOfEra days) := by
    rw [marchDay]
    omega
  rw [ofDays_eq]
  split
  · rename_i hfirst
    have hmarch : ¬(marchMonth (dayOfEra days) + 3).toNat ≤ 2 := by omega
    simp only [toDays, if_neg hmarch]
    omega
  · rename_i hlast
    have hmarch : (marchMonth (dayOfEra days) - 9).toNat ≤ 2 := by omega
    simp only [toDays, if_pos hmarch]
    omega

theorem isValid_ofDays : (ofDays days).isValid = true := by
  have hmonth := marchMonth_bounds days
  have hlast := marchDay_bounds (dayOfEra_bounds days)
  have hleap := isLeapYear_of_marchDay (dayOfEra_bounds days) (eraOf days)
  have hmonths : marchMonth (dayOfEra days) = (5 * marchDay (dayOfEra days) + 2) / 153 := rfl
  rw [ofDays_eq]
  generalize marchMonth (dayOfEra days) = month at hmonth hmonths ⊢
  generalize marchDay (dayOfEra days) = day at hlast hleap hmonths ⊢
  generalize marchYear (dayOfEra days) + eraOf days * 400 = year at hleap ⊢
  have hcases : month = 0 ∨ month = 1 ∨ month = 2 ∨ month = 3 ∨ month = 4 ∨ month = 5 ∨
      month = 6 ∨ month = 7 ∨ month = 8 ∨ month = 9 ∨ month = 10 ∨ month = 11 := by
    omega
  rcases hcases with rfl | rfl | rfl | rfl | rfl | rfl | rfl | rfl | rfl | rfl | rfl | rfl
  case inr.inr.inr.inr.inr.inr.inr.inr.inr.inr.inr =>
    -- Only February has a length of its own every year.
    by_cases hday : day = 365
    · simp [isValid, daysInMonth, hleap hday, hday]
    · have hshort : 28 ≤ daysInMonth (year + 1) 2 := by
        rw [daysInMonth]
        split <;> split <;> simp_all
      simp [isValid]
      omega
  all_goals
    simp [isValid, daysInMonth]
    omega

end Days

end NodeAttestation.Date
