import Mathlib.Data.Prod.Lex
import NodeAttestation.Proofs.Time.Adding

/-!
# Whole seconds back

Where a number of seconds leads back to on a time line without a beginning. The calendar has an
instant at that place, unless it lies before the first of all, which then stands in for it.
-/

namespace NodeAttestation.Instant

/-- The second of an instant and the nanoseconds into it, in the order of time. -/
def place (t : Instant) : Int ×ₗ Nat := toLex (t.second, t.nano)

/-- The place a number of seconds before an instant. The nanoseconds into the second are kept; those
of a leap second count into the second after it, once it is left. -/
def placeBefore (t : Instant) (seconds : Nat) : Int ×ₗ Nat :=
  if t.isLeap ∧ 0 < seconds then toLex (t.second + 1 - seconds, t.nano - 1000000000)
  else toLex (t.second - seconds, t.nano)

variable {t u : Instant} {seconds more : Nat}

theorem place_le_place : t.place ≤ u.place ↔ t ≤ u := by
  rw [place, place, Prod.Lex.toLex_le_toLex]
  rfl

theorem earliest_le_place (t : Instant) : earliest.place ≤ t.place := by
  have hearliest := t.earliest_le
  rw [place_le_place]
  change -8334601228800 < t.second ∨ -8334601228800 = t.second ∧ 0 ≤ t.nano
  omega

theorem placeBefore_of_isLeap_eq_false (hleap : t.isLeap = false) (seconds : Nat) :
    t.placeBefore seconds = toLex (t.second - seconds, t.nano) := by
  rw [placeBefore, if_neg]
  simp [hleap]

theorem placeBefore_zero (t : Instant) : t.placeBefore 0 = t.place := by
  rw [placeBefore, if_neg (by omega), place, Int.natCast_zero, Int.sub_zero]

theorem placeBefore_of_isLeap (hleap : t.isLeap = true) (hpos : 0 < seconds) :
    t.placeBefore seconds = toLex (t.second + 1 - seconds, t.nano - 1000000000) := by
  rw [placeBefore, if_pos ⟨hleap, hpos⟩]

theorem placeBefore_anti (h : seconds ≤ more) : t.placeBefore more ≤ t.placeBefore seconds := by
  cases hleap : t.isLeap with
  | false =>
    rw [placeBefore_of_isLeap_eq_false hleap, placeBefore_of_isLeap_eq_false hleap,
      Prod.Lex.toLex_le_toLex]
    omega
  | true =>
    rcases Nat.eq_zero_or_pos more with rfl | hmore
    · rw [Nat.le_zero.1 h]
    · rw [placeBefore_of_isLeap hleap hmore]
      rcases Nat.eq_zero_or_pos seconds with rfl | hpos
      · rw [placeBefore_zero, place, Prod.Lex.toLex_le_toLex]
        omega
      · rw [placeBefore_of_isLeap hleap hpos, Prod.Lex.toLex_le_toLex]
        omega

theorem placeBefore_le (t : Instant) (seconds : Nat) : t.placeBefore seconds ≤ t.place := by
  rw [← t.placeBefore_zero]
  exact placeBefore_anti (Nat.zero_le seconds)

theorem nano_placeBefore_lt (t : Instant) (hpos : 0 < seconds) :
    (ofLex (t.placeBefore seconds)).2 < 1000000000 := by
  cases hleap : t.isLeap with
  | false =>
    rw [placeBefore_of_isLeap_eq_false hleap]
    exact nano_lt_of_isLeap_eq_false hleap
  | true =>
    have hnano := t.nano_lt
    rw [placeBefore_of_isLeap hleap hpos, ofLex_toLex]
    omega

/-- Counted in nanoseconds, the way back is as long as it should be, out of a leap second too. -/
theorem nanos_placeBefore (t : Instant) (seconds : Nat) :
    (ofLex (t.placeBefore seconds)).1 * nanosPerSecond + (ofLex (t.placeBefore seconds)).2 =
      t.nanos - Span.seconds seconds := by
  rw [placeBefore, nanos, Span.seconds]
  split
  · rename_i h
    have hlate := isLeap_iff.1 h.1
    rw [nanosPerSecond, ofLex_toLex]
    omega
  · rw [nanosPerSecond, ofLex_toLex]
    omega

/-- Whole seconds lead back to the place before, if the calendar reaches it. -/
theorem add?_neg_seconds (t : Instant) (seconds : Nat) :
    t.add? (-Span.seconds seconds) =
      ofParts? (ofLex (t.placeBefore seconds)).1 (ofLex (t.placeBefore seconds)).2 := by
  rcases Nat.eq_zero_or_pos seconds with rfl | hpos
  · -- Without a step back the instant stays in its leap second.
    have hzero : -Span.seconds (0 : Nat) = 0 := by decide
    rw [hzero, t.add?_zero, t.placeBefore_zero]
    exact t.ofParts?_self.symm
  · have hquotient : (-Span.seconds seconds).tdiv nanosPerSecond = -seconds := by
      rw [Span.seconds, ← Int.neg_mul, Int.mul_tdiv_cancel _ (by decide)]
    have hback : ¬(0 : Int) ≤ -seconds := by omega
    have hmoves : ((-(seconds : Int)) == 0) = false := by
      rw [beq_eq_false_iff_ne]
      omega
    rw [← ofNanos?_of_parts (t.nano_placeBefore_lt hpos) (t.nanos_placeBefore seconds)]
    rw [add?, hquotient, hmoves]
    simp only [hback, Bool.and_false, Bool.false_and, Bool.false_eq_true, if_false, decide_false]
    rfl

theorem place_of_add?_eq_some (sum : t.add? (-Span.seconds seconds) = some u) :
    u.place = t.placeBefore seconds := by
  rw [add?_neg_seconds] at sum
  obtain ⟨hsecond, hnano⟩ := ofParts?_eq_some sum
  rw [place, hsecond, hnano]
  rfl

theorem pos_of_add?_eq_none (h : t.add? (-Span.seconds seconds) = none) : 0 < seconds := by
  refine Nat.pos_of_ne_zero ?_
  rintro rfl
  have hnowhere : t.add? 0 = none := h
  rw [t.add?_zero] at hnowhere
  cases hnowhere

theorem second_lt_of_add?_eq_none (h : t.add? (-Span.seconds seconds) = none) :
    (ofLex (t.placeBefore seconds)).1 < earliest.second := by
  have hlatest := t.le_latest
  have hnano := t.nano_placeBefore_lt (pos_of_add?_eq_none h)
  have hsecond : (ofLex (t.placeBefore seconds)).1 ≤ t.second :=
    Prod.Lex.monotone_fst _ _ (t.placeBefore_le seconds)
  rw [add?_neg_seconds, ofParts?_eq_none_iff] at h
  change _ < (-8334601228800 : Int)
  omega

/-- Spans are long enough to lead from any instant to before the calendar. -/
theorem add?_eq_none_of_maxMillis_lt (t : Instant) (h : Span.maxMillis < seconds * 1000) :
    t.add? (-Span.seconds seconds) = none := by
  have hlatest := t.le_latest
  rw [t.add?_neg_seconds, ofParts?_eq_none_iff, placeBefore]
  rw [Span.maxMillis] at h
  split
  · rw [ofLex_toLex]
    omega
  · rw [ofLex_toLex]
    omega

/-- The first instant of the calendar stands in for a place before it. -/
theorem place_getD_add? (t : Instant) (seconds : Nat) :
    ((t.add? (-Span.seconds seconds)).getD earliest).place =
      max earliest.place (t.placeBefore seconds) := by
  cases hsum : t.add? (-Span.seconds seconds) with
  | none =>
    have hbefore : t.placeBefore seconds < earliest.place :=
      Prod.Lex.lt_iff.2 (.inl (second_lt_of_add?_eq_none hsum))
    exact (max_eq_left (le_of_lt hbefore)).symm
  | some u =>
    rw [← place_of_add?_eq_some hsum]
    exact (max_eq_right u.earliest_le_place).symm

theorem earliest_nanos_le (t : Instant) : earliest.nanos ≤ t.nanos := by
  have hearliest := t.earliest_le
  change -8334601228800 * nanosPerSecond + (0 : Nat) ≤ t.second * nanosPerSecond + t.nano
  rw [nanosPerSecond]
  omega

theorem nanos_getD_add? (t : Instant) (seconds : Nat) :
    ((t.add? (-Span.seconds seconds)).getD earliest).nanos =
      max earliest.nanos (t.nanos - Span.seconds seconds) := by
  rw [← t.nanos_placeBefore]
  cases hsum : t.add? (-Span.seconds seconds) with
  | none =>
    have hsecond := second_lt_of_add?_eq_none hsum
    have hnano := t.nano_placeBefore_lt (pos_of_add?_eq_none hsum)
    rw [Option.getD_none, max_eq_left]
    rw [nanos, nanosPerSecond]
    omega
  | some u =>
    rw [← place_of_add?_eq_some hsum]
    exact (max_eq_right u.earliest_nanos_le).symm

end NodeAttestation.Instant
