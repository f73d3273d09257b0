import NodeAttestation.Proofs.Time.Receding
import NodeAttestation.Settings.Limits

/-!
# The window that counts as fresh

Since when fetches count as fresh, for a validity of any length. It may have too many bits for a
number of seconds, be too long for a span, or lead back beyond the calendar. Everything counts as
fresh then, and in each of these cases rightly so: what is no span would lead beyond the calendar.
-/

namespace NodeAttestation.Limits

variable {l : Limits} {now : Instant}

theorem eq_seconds_of_window? {window : Span} (h : l.window? = some window) :
    window = Span.seconds l.validitySeconds := by
  rw [window?, Span.ofSeconds?] at h
  split at h
  · split at h
    · exact (Option.some.inj h).symm
    · cases h
  · cases h

/-- A validity of more than 63 bits would be too long for a span anyway. -/
theorem maxMillis_lt_of_window? (h : l.window? = none) :
    Span.maxMillis < l.validitySeconds * 1000 := by
  rw [window?, Span.ofSeconds?] at h
  rw [Span.maxMillis] at h ⊢
  split at h
  · split at h
    · cases h
    · omega
  · omega

/-- The three limits come down to that of the calendar. -/
theorem freshSince_eq (l : Limits) (now : Instant) :
    l.freshSince now = (now.add? (-Span.seconds l.validitySeconds)).getD .earliest := by
  rw [freshSince]
  cases hwindow : l.window? with
  | none =>
    rw [now.add?_eq_none_of_maxMillis_lt (maxMillis_lt_of_window? hwindow)]
    rfl
  | some window =>
    rw [eq_seconds_of_window? hwindow]
    rfl

theorem place_freshSince (l : Limits) (now : Instant) :
    (l.freshSince now).place =
      max Instant.earliest.place (now.placeBefore l.validitySeconds) := by
  rw [freshSince_eq, now.place_getD_add?]

theorem freshSince_le_now (l : Limits) (now : Instant) : l.freshSince now ≤ now := by
  rw [← Instant.place_le_place, place_freshSince]
  exact max_le now.earliest_le_place (now.placeBefore_le _)

theorem freshSince_anti {longer : Limits} (h : l.validitySeconds ≤ longer.validitySeconds) :
    longer.freshSince now ≤ l.freshSince now := by
  rw [← Instant.place_le_place, place_freshSince, place_freshSince]
  exact max_le (le_max_left _ _) ((Instant.placeBefore_anti h).trans (le_max_right _ _))

/-- Whatever the validity, a fetch counts as fresh from the instant that lies so many seconds back,
or from the first instant of the calendar if that is later. So the bound is never after the present,
and never later for a longer validity. -/
theorem freshSince_eq_max (l : Limits) (now : Instant) :
    (l.freshSince now).place =
        max Instant.earliest.place (now.placeBefore l.validitySeconds) ∧
      (l.freshSince now).nanos =
        max Instant.earliest.nanos (now.nanos - Span.seconds l.validitySeconds) ∧
      l.freshSince now ≤ now ∧
      ∀ longer : Limits, l.validitySeconds ≤ longer.validitySeconds →
        longer.freshSince now ≤ l.freshSince now := by
  refine ⟨l.place_freshSince now, ?_, l.freshSince_le_now now, fun _ h => freshSince_anti h⟩
  rw [freshSince_eq, now.nanos_getD_add?]

section Boundary

/-- Half way through the leap second at the end of the year 2016. -/
def halfLeapSecond : Instant := ⟨1483228799, 1500000000, by decide, by decide, by decide⟩

/-- The window that reaches back to the first second of the calendar, and the longest that can be
asked for. -/
theorem freshSince_eq_max_of_firstSecond :
    ((⟨1, 1, 8336084457600⟩ : Limits).freshSince halfLeapSecond).nanos =
        Instant.earliest.nanos + 500000000 ∧
      (⟨1, 1, 2 ^ 64 - 1⟩ : Limits).freshSince halfLeapSecond = .earliest ∧
      (⟨1, 1, 2 ^ 64 - 1⟩ : Limits).freshSince halfLeapSecond ≤
        (⟨1, 1, 8336084457600⟩ : Limits).freshSince halfLeapSecond := by
  obtain ⟨-, reached, -, shorter⟩ := freshSince_eq_max ⟨1, 1, 8336084457600⟩ halfLeapSecond
  refine ⟨reached.trans (by decide), by decide, shorter ⟨1, 1, 2 ^ 64 - 1⟩ (by decide)⟩

end Boundary

end NodeAttestation.Limits
