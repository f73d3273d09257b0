import NodeAttestation.Proofs.Double.Rescaling
import NodeAttestation.Proofs.RateLimit.Lifetime
import NodeAttestation.Proofs.RateLimit.Updates

/-!
# When limits expire

A limit never lives for longer than the cap, however long an entry asks it to, and longer the longer
it is asked to. It lives for whole milliseconds, so that a limit that is asked to live for less than
one has expired when it is received.
-/

namespace NodeAttestation

namespace Double

/-- The double nearest to a thousandth. -/
def thousandth : Double := ofQuotient 1 1000

section Thousand

variable {x : Double} {n : Nat}

/-- What is less than a thousandth is less than one when it is multiplied by a thousand, though the
product is rounded. -/
theorem floorAbs_mul_thousand_pos_iff :
    0 < (x.mul (ofNat 1000)).floorAbs ↔ thousandth.absSteps ≤ x.absSteps := by
  constructor
  · intro hpos
    refine Nat.le_of_not_lt fun hlt => ?_
    have hbits : x.magnitude ≤ thousandth.magnitude - 1 := by
      have hless : x.magnitude < thousandth.magnitude :=
        Nat.lt_of_not_le fun hle => Nat.not_le_of_lt hlt (stepsOf_mono hle)
      omega
    have hbelow : x.absSteps ≤ (ofMagnitude false (thousandth.magnitude - 1)).absSteps := by
      rw [absSteps_ofMagnitude false (by decide +kernel)]
      exact stepsOf_mono hbits
    have hfloor := floorAbs_mul_mono (ofNat 1000) hbelow
    have hzero :
        ((ofMagnitude false (thousandth.magnitude - 1)).mul (ofNat 1000)).floorAbs = 0 := by
      decide +kernel
    omega
  · intro hle
    have hone : (thousandth.mul (ofNat 1000)).floorAbs = 1 := by decide +kernel
    have hfloor := floorAbs_mul_mono (ofNat 1000) hle
    omega

/-- A thousand is eight times an odd number, so that its product with an integer of 46 bits is a
double. -/
theorem floorAbs_mul_thousand_le (h : x.absSteps ≤ n * stepsPerOne) (hn : n * 125 < 2 ^ 53) :
    (x.mul (ofNat 1000)).floorAbs ≤ n * 1000 := by
  obtain ⟨magnitude, hsteps⟩ := exists_stepsOf_eq hn (3 + 1074)
  have hvalue : stepsOf magnitude = n * 1000 * stepsPerOne := by
    rw [hsteps, Nat.pow_add 2 3 1074, ← stepsPerOne, ← Nat.mul_assoc, Nat.mul_assoc n]
  have hunit := Nat.mul_pos stepsPerOne_pos stepsPerOne_pos
  have hthousand : (ofNat 1000).absSteps = 1000 * stepsPerOne := absSteps_ofNat_exact (by decide)
  have hproduct : (x.mul (ofNat 1000)).absSteps ≤ n * 1000 * stepsPerOne := by
    rw [absSteps_mul, ← hvalue, hthousand]
    refine stepsOf_mono (nearest_le_of_le hunit ?_)
    rw [hvalue]
    calc
      x.absSteps * (1000 * stepsPerOne) * stepsPerOne
      _ ≤ n * stepsPerOne * (1000 * stepsPerOne) * stepsPerOne :=
        Nat.mul_le_mul_right _ (Nat.mul_le_mul_right _ h)
      _ = n * 1000 * stepsPerOne * (stepsPerOne * stepsPerOne) := by
        rw [Nat.mul_mul_mul_comm, Nat.mul_assoc (n * 1000), Nat.mul_assoc stepsPerOne,
          ← Nat.mul_assoc (n * 1000)]
  rw [floorAbs]
  exact Nat.div_le_of_le_mul (by rwa [Nat.mul_comm])

end Thousand

end Double

namespace RateLimit

section Lifetime

variable {seconds longer : Double} {cap : Nat}

/-- An entry lives for at least a millisecond if and only if it asks for at least a thousandth of a
second, whatever the cap. -/
theorem lifetimeMillis_pos_iff (positive : seconds.isPositive = true) (hcap : 0 < cap) :
    0 < lifetimeMillis seconds cap ↔ Double.thousandth.steps ≤ seconds.steps := by
  have hpos := Double.steps_pos_of_isPositive positive
  have hone : Double.thousandth.absSteps ≤ (Double.ofNat cap).absSteps := by
    refine Nat.le_trans ?_ (Double.absSteps_ofNat_mono hcap)
    decide +kernel
  have hthousandth : Double.thousandth.steps = Double.thousandth.absSteps :=
    Double.steps_of_pos (by decide +kernel)
  have hmost : 0 < maxMillis := by decide
  have hfloor := Double.floorAbs_mul_thousand_pos_iff (x := seconds.min (.ofNat cap))
  rw [Double.absSteps_min hpos, Nat.le_min, and_iff_left hone] at hfloor
  rw [hthousandth, Double.steps_of_pos hpos, Int.ofNat_le, ← hfloor, lifetimeMillis]
  omega

theorem lifetimeMillis_mono (positive : seconds.isPositive = true)
    (hlonger : longer.isPositive = true) (h : seconds.steps ≤ longer.steps) (cap : Nat) :
    lifetimeMillis seconds cap ≤ lifetimeMillis longer cap := by
  have hpos := Double.steps_pos_of_isPositive positive
  have hpos' := Double.steps_pos_of_isPositive hlonger
  rw [Double.steps_of_pos hpos, Double.steps_of_pos hpos', Int.ofNat_le] at h
  apply lifetimeMillis_le_of_absSteps
  rw [Double.absSteps_min hpos, Double.absSteps_min hpos']
  exact Nat.le_min.2 ⟨Nat.le_trans (Nat.min_le_left _ _) h, Nat.min_le_right _ _⟩

/-- A cap of at most 46 bits is applied to the millisecond. -/
theorem lifetimeMillis_le_of_exact (positive : seconds.isPositive = true)
    (hcap : cap * 125 < 2 ^ 53) : lifetimeMillis seconds cap ≤ cap * 1000 := by
  have hmin : (seconds.min (.ofNat cap)).absSteps ≤ cap * Double.stepsPerOne := by
    rw [Double.absSteps_min (Double.steps_pos_of_isPositive positive),
      ← Double.absSteps_ofNat_exact (by omega)]
    exact Nat.min_le_right _ _
  have hfloor := Double.floorAbs_mul_thousand_le hmin hcap
  rw [lifetimeMillis]
  omega

/-- A longer cap is rounded, but by then the calendar ends before the limit could. -/
theorem lifetimeMillis_le_cap {now expiresAt : Instant} (positive : seconds.isPositive = true)
    (sum : now.add? (Span.millis (lifetimeMillis seconds cap)) = some expiresAt) :
    lifetimeMillis seconds cap ≤ cap * 1000 := by
  by_cases hcap : cap * 125 < 2 ^ 53
  · exact lifetimeMillis_le_of_exact positive hcap
  · have hend : ¬Instant.endOfCalendar ≤
        now.origin + Span.millis (lifetimeMillis seconds cap) := by
      rw [← now.add?_eq_none_iff (zero_le_millis _), sum]
      exact Option.some_ne_none expiresAt
    have horigin := now.origin_cases
    have hearliest := now.earliest_le
    rw [Instant.endOfCalendar, nanosPerSecond, Span.millis] at hend
    omega

end Lifetime

section Cap

variable {now : Instant} {settings : Settings} {pushed : PushedLimit} {limit : RateLimit}

theorem millis_le_seconds {n cap : Nat} (h : n ≤ cap * 1000) :
    Span.millis n ≤ Span.seconds cap := by
  rw [Span.millis, Span.seconds, nanosPerSecond]
  change @LE.le Int _ _ _
  omega

/-- However long an entry is to live and however large the cap, its limit does not expire before it
is received, nor later than the cap allows. Of two entries that differ in this alone, the one that
is to live longer does not expire before the other. -/
theorem expiresAt_within_cap (received : ofPushed now settings pushed = .ok limit) :
    (now ≤ limit.expiresAt ∧
        limit.expiresAt.sub now ≤ Span.seconds settings.maxLimitSeconds.toNat ∧
        ∀ last, now.add? (Span.seconds settings.maxLimitSeconds.toNat) = some last →
          limit.expiresAt ≤ last) ∧
      ∀ longer other, pushed.lifetimeSeconds.steps ≤ longer.steps →
        ofPushed now settings { pushed with lifetimeSeconds := longer } = .ok other →
        limit.expiresAt ≤ other.expiresAt := by
  obtain ⟨acceptable, expiresAt, sum, rfl⟩ := ofPushed_eq_ok_iff.1 received
  have hspan := zero_le_millis
    (lifetimeMillis pushed.lifetimeSeconds settings.maxLimitSeconds.toNat)
  have hcap := millis_le_seconds (lifetimeMillis_le_cap acceptable.lifetime sum)
  refine ⟨⟨Instant.le_add? hspan sum, ?_, fun last latest => ?_⟩, fun longer other h accepted => ?_⟩
  · exact Int.le_trans (Instant.sub_add?_le hspan sum) hcap
  · exact Instant.add?_le_add? hspan hcap sum latest
  · obtain ⟨acceptable', expiresAt', sum', rfl⟩ := ofPushed_eq_ok_iff.1 accepted
    have hmono := lifetimeMillis_mono acceptable.lifetime acceptable'.lifetime h
      settings.maxLimitSeconds.toNat
    have hlonger : Span.millis
        (lifetimeMillis pushed.lifetimeSeconds settings.maxLimitSeconds.toNat) ≤
          Span.millis (lifetimeMillis longer settings.maxLimitSeconds.toNat) :=
      Int.mul_le_mul_of_nonneg_right (Int.ofNat_le.2 hmono) (by decide)
    exact Instant.add?_le_add? hspan hlonger sum sum'

/-- Unless the cap is zero, a limit has expired when it is received if and only if it is to live for
less than a thousandth of a second. -/
theorem isExpired_received_iff (received : ofPushed now settings pushed = .ok limit)
    (capped : 0 < settings.maxLimitSeconds.toNat) :
    limit.isExpired now = true ↔ pushed.lifetimeSeconds.steps < Double.thousandth.steps := by
  obtain ⟨acceptable, expiresAt, sum, rfl⟩ := ofPushed_eq_ok_iff.1 received
  rw [isExpired, decide_eq_true_eq, ← Int.not_le,
    ← lifetimeMillis_pos_iff acceptable.lifetime capped]
  generalize lifetimeMillis pushed.lifetimeSeconds settings.maxLimitSeconds.toNat = millis at sum ⊢
  cases millis with
  | zero =>
    have same : now = expiresAt := Option.some.inj (now.add?_zero.symm.trans sum)
    rw [same]
    exact iff_of_true expiresAt.le_refl (Nat.lt_irrefl 0)
  | succ millis =>
    have hlater : 0 < Span.millis (millis + 1 : Nat) := Int.mul_pos (by omega) (by decide)
    exact iff_of_false (Instant.not_le_iff.2 (Instant.lt_add? hlater sum))
      (not_not_intro millis.succ_pos)

section Leaping

/-- An entry for everything, with a window of a minute. -/
def entryLasting (seconds : Double) : PushedLimit :=
  { PushedLimit.empty with windowSeconds := .ofNat 60, lifetimeSeconds := seconds }

def limitUntil (expiresAt : Instant) : RateLimit :=
  ⟨filterOf PushedLimit.empty, 0, .ofNat 60, .zero, expiresAt⟩

theorem ofPushed_entryLasting {seconds : Double} {expiresAt : Instant}
    (positive : seconds.isPositive = true)
    (sum : now.add? (Span.millis (lifetimeMillis seconds settings.maxLimitSeconds.toNat)) =
      some expiresAt) :
    ofPushed now settings (entryLasting seconds) = .ok (limitUntil expiresAt) := by
  have acceptable : IsAcceptable (entryLasting seconds) :=
    ⟨show (Double.ofNat 60).isPositive = true by decide +kernel, positive,
      show Double.zero.inUnitInterval = true by decide +kernel⟩
  refine ofPushed_eq_ok_iff.2 ⟨acceptable, expiresAt, sum, ?_⟩
  simp only [limitUntil, entryLasting, filterOf, PushedLimit.empty]

def withinLeap : Instant :=
  ⟨59, 1200000000, by decide, by decide, by decide⟩

def laterInLeap : Instant :=
  ⟨59, 1700000000, by decide, by decide, by decide⟩

def nextDay : Instant :=
  ⟨86459, 200000000, by decide, by decide, by decide⟩

/-- One limit expires within the leap second in which it is received, and one that is to live for
ever a day later. -/
theorem expiresAt_within_cap_of_leap :
    ofPushed withinLeap .initial (entryLasting (.ofQuotient 1 2)) = .ok (limitUntil laterInLeap) ∧
      ofPushed withinLeap .initial (entryLasting (.ofDecimal 1 300)) = .ok (limitUntil nextDay) ∧
      withinLeap ≤ laterInLeap ∧ laterInLeap ≤ nextDay ∧
      nextDay.sub withinLeap ≤ Span.seconds Settings.initial.maxLimitSeconds.toNat := by
  have short : ofPushed withinLeap .initial (entryLasting (.ofQuotient 1 2)) =
      .ok (limitUntil laterInLeap) := ofPushed_entryLasting (by decide +kernel) (by decide +kernel)
  have long : ofPushed withinLeap .initial (entryLasting (.ofDecimal 1 300)) =
      .ok (limitUntil nextDay) := ofPushed_entryLasting (by decide +kernel) (by decide +kernel)
  obtain ⟨⟨notEarlier, -, -⟩, mono⟩ := expiresAt_within_cap short
  exact ⟨short, long, notEarlier, mono _ _ (by decide +kernel) long,
    (expiresAt_within_cap long).1.2.1⟩

end Leaping

end Cap

end RateLimit

namespace LimitTable

variable {now : Instant} {settings : Settings} {pushed : PushedLimit} {limit : RateLimit}

/-- Unless the cap is zero, a limit has expired when it is received if and only if it is to live for
less than a thousandth of a second. In any table it takes the place of the limit with the same
filter, and is not active itself if it has expired. -/
theorem active_apply_received (received : RateLimit.ofPushed now settings pushed = .ok limit)
    (capped : 0 < settings.maxLimitSeconds.toNat) :
    (limit.isExpired now = true ↔ pushed.lifetimeSeconds.steps < Double.thousandth.steps) ∧
      ∀ t : LimitTable, (t.apply now limit).active now =
        (t.active now).filter (·.filter != limit.filter) ++
          if pushed.lifetimeSeconds.steps < Double.thousandth.steps then [] else [limit] := by
  have hexpired := RateLimit.isExpired_received_iff received capped
  refine ⟨hexpired, fun t => ?_⟩
  rw [active_apply t _ now.le_refl]
  by_cases brief : pushed.lifetimeSeconds.steps < Double.thousandth.steps
  · rw [if_pos brief, List.filter_cons_of_neg, List.filter_nil]
    rw [hexpired.2 brief]
    exact Bool.false_ne_true
  · rw [if_neg brief, List.filter_cons_of_pos, List.filter_nil]
    rw [Bool.eq_false_iff.2 fun expired => brief (hexpired.1 expired)]
    rfl

section Brief

open RateLimit (entryLasting limitUntil ofPushed_entryLasting)

def oneMillisecond : Instant := { Instant.epoch with nano := 1000000, nano_lt := by decide }

/-- A limit that is to live for the double next to a thousandth is in force when it is received. -/
theorem active_apply_received_of_thousandth :
    RateLimit.ofPushed .epoch .initial (entryLasting .thousandth) =
        .ok (limitUntil oneMillisecond) ∧
      0 < Settings.initial.maxLimitSeconds.toNat ∧
      (empty.apply .epoch (limitUntil oneMillisecond)).active .epoch =
        [limitUntil oneMillisecond] := by
  have received : RateLimit.ofPushed .epoch .initial (entryLasting .thousandth) =
      .ok (limitUntil oneMillisecond) :=
    ofPushed_entryLasting (by decide +kernel) (by decide +kernel)
  have capped : 0 < Settings.initial.maxLimitSeconds.toNat := by decide
  refine ⟨received, capped, ?_⟩
  rw [(active_apply_received received capped).2 empty, if_neg (by decide +kernel)]
  rfl

/-- A limit of half a millisecond is accepted and has expired at once. The limit that it replaces is
lost. -/
theorem not_active_of_halfMillisecond :
    0 < Settings.initial.maxLimitSeconds.toNat ∧
      RateLimit.ofPushed .epoch .initial (entryLasting (.ofQuotient 1 2000)) =
        .ok (limitUntil .epoch) ∧
      (limitUntil .epoch).isExpired .epoch = true ∧
      (empty.apply .epoch (limitUntil oneMillisecond)).active .epoch =
        [limitUntil oneMillisecond] ∧
      ((empty.apply .epoch (limitUntil oneMillisecond)).apply .epoch (limitUntil .epoch)).active
        .epoch = [] :=
  ⟨by decide, ofPushed_entryLasting (by decide +kernel) (by decide +kernel), by decide,
    by decide +kernel, by decide +kernel⟩

end Brief

end LimitTable

end NodeAttestation
