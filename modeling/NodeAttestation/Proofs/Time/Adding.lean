import NodeAttestation.Proofs.Time.Elapsing
import NodeAttestation.Time.Calendar

/-!
# Spans forward

Which spans lead from an instant to beyond the calendar, and where the others lead. A longer span
never leads to an earlier instant, not even out of a leap second.
-/

namespace NodeAttestation.Instant

/-- The first nanosecond that the calendar does not reach. -/
def endOfCalendar : Int := 8210266876800 * nanosPerSecond

/-- The nanoseconds that a span forward is counted from. A leap second counts as the one before. -/
def origin (t : Instant) : Int := t.nanos - if t.isLeap then nanosPerSecond else 0

theorem ofParts?_self (t : Instant) : ofParts? t.second t.nano = some t := by
  rw [ofParts?, dif_pos ⟨t.earliest_le, t.le_latest, t.nano_lt⟩]

theorem ofParts?_eq_none_iff (second : Int) (nano : Nat) :
    ofParts? second nano = none ↔
      ¬(-8334601228800 ≤ second ∧ second ≤ 8210266876799 ∧ nano < 2000000000) := by
  rw [ofParts?]
  split
  · rename_i h
    exact iff_of_false (Option.some_ne_none _) (not_not_intro h)
  · rename_i h
    exact iff_of_true rfl h

theorem ofNanos?_eq_none_iff {n : Int} (h : -8334601228800 * nanosPerSecond ≤ n) :
    ofNanos? n = none ↔ endOfCalendar ≤ n := by
  rw [ofNanos?, ofParts?_eq_none_iff, endOfCalendar]
  rw [nanosPerSecond] at h ⊢
  omega

theorem ofNanos?_of_parts {n second : Int} {nano : Nat} (hnano : nano < 1000000000)
    (h : second * nanosPerSecond + nano = n) : ofNanos? n = ofParts? second nano := by
  rw [ofNanos?]
  rw [nanosPerSecond] at h ⊢
  congr 1
  · omega
  · omega

/-- A short span stays within the leap second that it starts in. Any other is counted from the
origin. -/
theorem add?_eq (t : Instant) {span : Int} (h : 0 ≤ span) :
    t.add? span =
      if 1000000000 ≤ t.nano ∧ t.nano + span < 2000000000 then
        ofParts? t.second (t.nano + span).toNat
      else ofNanos? (t.origin + span) := by
  have hquotient : span.tdiv nanosPerSecond = span / nanosPerSecond := Int.tdiv_eq_ediv_of_nonneg h
  have hremainder : span.tmod nanosPerSecond = span % nanosPerSecond := Int.tmod_eq_emod_of_nonneg h
  by_cases hwithin : 1000000000 ≤ t.nano ∧ (t.nano : Int) + span < 2000000000
  · have hleap := isLeap_iff.2 hwithin.1
    have hsecond : span / nanosPerSecond = 0 := by
      rw [nanosPerSecond]
      omega
    have hspan : span % nanosPerSecond = span := by
      rw [nanosPerSecond]
      omega
    have hshort : (t.nano : Int) + span < 2 * nanosPerSecond := by
      rw [nanosPerSecond]
      omega
    rw [add?, hquotient, hremainder, hsecond, hspan, if_pos hwithin]
    simp [hleap, hshort]
  · rw [add?, hquotient, hremainder, if_neg hwithin, if_neg]
    · rw [origin]
      cases hleap : t.isLeap with
      | false => simp
      | true =>
        have hforward : decide (0 ≤ span / nanosPerSecond) = true := by
          rw [nanosPerSecond, decide_eq_true_eq]
          omega
        rw [Bool.true_and, if_pos hforward, if_pos rfl]
        congr 1
        omega
    · rw [Bool.and_eq_true, Bool.and_eq_true, isLeap_iff, beq_iff_eq, decide_eq_true_eq,
        nanosPerSecond]
      omega

theorem origin_cases (t : Instant) :
    (1000000000 ≤ t.nano ∧ t.origin = t.second * 1000000000 + t.nano - 1000000000) ∨
      (t.nano < 1000000000 ∧ t.origin = t.second * 1000000000 + t.nano) := by
  rw [origin, nanos]
  cases hleap : t.isLeap with
  | false => exact .inr ⟨nano_lt_of_isLeap_eq_false hleap, by simp [nanosPerSecond]⟩
  | true => exact .inl ⟨isLeap_iff.1 hleap, by simp [nanosPerSecond]⟩

/-- A span forward leads beyond the calendar if and only if it reaches its end. -/
theorem add?_eq_none_iff (t : Instant) {span : Int} (h : 0 ≤ span) :
    t.add? span = none ↔ endOfCalendar ≤ t.origin + span := by
  have hearliest := t.earliest_le
  have hlatest := t.le_latest
  have horigin := t.origin_cases
  rw [t.add?_eq h]
  split
  · rw [ofParts?_eq_none_iff, endOfCalendar, nanosPerSecond]
    omega
  · refine ofNanos?_eq_none_iff ?_
    rw [nanosPerSecond]
    omega

theorem second_le_of_year_le {t : Instant} (h : t.date.year ≤ 9999) : t.second ≤ 253402300799 := by
  rw [date, Date.ofDays, Date.epochOffset, secondsPerDay] at h
  dsimp only at h
  omega

section Order

variable {t u v : Instant} {span longer : Int}

theorem ofNanos?_eq_some {n : Int} (h : ofNanos? n = some u) :
    u.nano < 1000000000 ∧ u.nanos = n := by
  rw [ofNanos?, ofParts?] at h
  split at h
  · cases h
    rw [nanos]
    dsimp only
    rw [nanosPerSecond]
    omega
  · cases h

theorem ofParts?_eq_some {second : Int} {nano : Nat} (h : ofParts? second nano = some u) :
    u.second = second ∧ u.nano = nano := by
  rw [ofParts?] at h
  split at h
  · cases h
    exact ⟨rfl, rfl⟩
  · cases h

/-- A span forward ends within the leap second that it starts in, or it ends in none. -/
theorem add?_cases (h : 0 ≤ span) (sum : t.add? span = some u) :
    (1000000000 ≤ t.nano ∧ u.second = t.second ∧ (u.nano : Int) = t.nano + span) ∨
      (u.nano < 1000000000 ∧ u.nanos = t.origin + span ∧
        (1000000000 ≤ t.nano → 2000000000 ≤ t.nano + span)) := by
  rw [t.add?_eq h] at sum
  split at sum
  · rename_i hwithin
    obtain ⟨hsecond, hnano⟩ := ofParts?_eq_some sum
    exact .inl ⟨hwithin.1, hsecond, by omega⟩
  · rename_i hbeyond
    obtain ⟨hplain, hsum⟩ := ofNanos?_eq_some sum
    exact .inr ⟨hplain, hsum, by omega⟩

theorem lt_add? (h : 0 < span) (sum : t.add? span = some u) : t < u := by
  have horigin := t.origin_cases
  change t.second < u.second ∨ t.second = u.second ∧ t.nano < u.nano
  rcases add?_cases (Int.le_of_lt h) sum with ⟨-, hsecond, hnano⟩ | ⟨hplain, hsum, hbeyond⟩
  · omega
  · rw [nanos, nanosPerSecond] at hsum
    omega

theorem add?_le_add? (h : 0 ≤ span) (hle : span ≤ longer) (sum : t.add? span = some u)
    (later : t.add? longer = some v) : u ≤ v := by
  have horigin := t.origin_cases
  change u.second < v.second ∨ u.second = v.second ∧ u.nano ≤ v.nano
  rcases add?_cases h sum with ⟨hleap, hsecond, hnano⟩ | ⟨hplain, hsum, hbeyond⟩
  · rcases add?_cases (Int.le_trans h hle) later with ⟨-, hlater, hmore⟩ | ⟨hlater, hmore, hafter⟩
    · omega
    · rw [nanos, nanosPerSecond] at hmore
      omega
  · rcases add?_cases (Int.le_trans h hle) later with ⟨hleap, hlater, hmore⟩ | ⟨hlater, hmore, -⟩
    · have := v.nano_lt
      omega
    · rw [nanos, nanosPerSecond] at hsum hmore
      omega

theorem add?_zero (t : Instant) : t.add? 0 = some t := by
  have hnano := t.nano_lt
  have horigin := t.origin_cases
  rw [t.add?_eq (Int.le_refl 0), Int.add_zero, Int.add_zero]
  split
  · exact t.ofParts?_self
  · refine (ofNanos?_of_parts ?_ ?_).trans t.ofParts?_self
    · omega
    · rw [nanosPerSecond]
      omega

theorem le_add? (h : 0 ≤ span) (sum : t.add? span = some u) : t ≤ u :=
  add?_le_add? (Int.le_refl 0) h t.add?_zero sum

/-- What is left until the end of a span is never more than the span. It is less by the leap second
that the span starts in, if that does not count. -/
theorem sub_add?_le (h : 0 ≤ span) (sum : t.add? span = some u) : u.sub t ≤ span := by
  have horigin := t.origin_cases
  have hbefore := leapBefore_cases t u
  have hafter := leapBefore_cases u t
  rw [sub, nanos, nanos]
  generalize leapBefore t u = before at hbefore ⊢
  generalize leapBefore u t = after at hafter ⊢
  rw [nanosPerSecond] at hbefore hafter ⊢
  rcases add?_cases h sum with ⟨-, hsecond, hnano⟩ | ⟨hplain, hsum, -⟩
  · have hday : u.secondOfDay = t.secondOfDay := by
      rw [secondOfDay, secondOfDay, hsecond]
    rcases hbefore with ⟨hcounted, -⟩ | ⟨-, rfl⟩
    · omega
    · rcases hafter with ⟨hcounted, -⟩ | ⟨-, rfl⟩
      · omega
      · change @LE.le Int _ _ _
        omega
  · rw [nanos, nanosPerSecond] at hsum
    rcases hafter with ⟨hcounted, -⟩ | ⟨-, rfl⟩
    · omega
    · rcases hbefore with ⟨hcounted, rfl⟩ | ⟨-, rfl⟩
      all_goals
        change @LE.le Int _ _ _
        omega

end Order

end NodeAttestation.Instant
