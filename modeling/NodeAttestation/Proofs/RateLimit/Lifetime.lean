import NodeAttestation.Proofs.Double.Rounding
import NodeAttestation.Proofs.Time.Adding
import NodeAttestation.RateLimit.Basic

/-!
# What becomes of an entry

Which entries are limits, which would live on beyond the calendar, and which caps keep all of them
from that.
-/

namespace NodeAttestation.RateLimit

/-- The longest cap on lifetimes, in seconds, that leads from no instant up to the end of the year
9999 to beyond the calendar. -/
def longestCap : Nat := 7956864576000

/-- An entry that passes the checks of its window, its lifetime and its jitter. -/
structure IsAcceptable (pushed : PushedLimit) : Prop where
  window : pushed.windowSeconds.isPositive = true
  lifetime : pushed.lifetimeSeconds.isPositive = true
  jitter : pushed.jitter.inUnitInterval = true

section Lifetime

theorem lifetimeMillis_le_of_absSteps {seconds other : Double} {cap larger : Nat}
    (h : (seconds.min (.ofNat cap)).absSteps ≤ (other.min (.ofNat larger)).absSteps) :
    lifetimeMillis seconds cap ≤ lifetimeMillis other larger := by
  have hfloor := Double.floorAbs_mul_mono (.ofNat 1000) h
  rw [lifetimeMillis, lifetimeMillis]
  omega

/-- A lifetime is at most that of the cap, and that grows with the cap. -/
theorem lifetimeMillis_le {seconds : Double} {cap larger : Nat}
    (positive : seconds.isPositive = true) (h : cap ≤ larger) :
    lifetimeMillis seconds cap ≤ lifetimeMillis (.ofNat larger) larger := by
  apply lifetimeMillis_le_of_absSteps
  rw [Double.min_ofNat_of_le (Nat.le_refl larger),
    Double.absSteps_min (Double.steps_pos_of_isPositive positive)]
  exact Nat.le_trans (Nat.min_le_right _ _) (Double.absSteps_ofNat_mono h)

theorem lifetimeMillis_of_le {n cap : Nat} (h : n ≤ cap) :
    lifetimeMillis (.ofNat n) cap = lifetimeMillis (.ofNat n) n := by
  rw [lifetimeMillis, lifetimeMillis, Double.min_ofNat_of_le h,
    Double.min_ofNat_of_le (Nat.le_refl n)]

theorem lifetimeMillis_longestCap :
    lifetimeMillis (.ofNat longestCap) longestCap = longestCap * 1000 := by
  decide +kernel

theorem lifetimeMillis_succ_longestCap :
    lifetimeMillis (.ofNat (longestCap + 1)) (longestCap + 1) = (longestCap + 1) * 1000 := by
  decide +kernel

end Lifetime

section Calendar

variable {now : Instant} {settings : Settings} {pushed : PushedLimit}

theorem zero_le_millis (n : Nat) : (0 : Int) ≤ Span.millis n :=
  Int.mul_nonneg (Int.natCast_nonneg n) (by decide)

theorem ofPushed_of_acceptable (acceptable : IsAcceptable pushed) :
    ofPushed now settings pushed =
      match now.add? (Span.millis
        (lifetimeMillis pushed.lifetimeSeconds settings.maxLimitSeconds.toNat)) with
      | none => .error .beyondCalendar
      | some expiresAt => .ok ⟨filterOf pushed, pushed.requestCount, pushed.windowSeconds,
          pushed.jitter, expiresAt⟩ := by
  rw [ofPushed, acceptable.window, acceptable.lifetime, acceptable.jitter]
  rfl

/-- The service is told why an entry is not acceptable. -/
theorem exists_rejection (now : Instant) (settings : Settings)
    (unacceptable : ¬IsAcceptable pushed) :
    ∃ rejection, rejection ≠ .beyondCalendar ∧
      ofPushed now settings pushed = .error rejection := by
  rw [ofPushed]
  split
  · exact ⟨.window pushed.windowSeconds, nofun, rfl⟩
  · rename_i hwindow
    split
    · exact ⟨.lifetime pushed.lifetimeSeconds, nofun, rfl⟩
    · rename_i hlifetime
      split
      · exact ⟨.jitter pushed.jitter, nofun, rfl⟩
      · rename_i hjitter
        simp only [Bool.not_eq_true', Bool.not_eq_false] at hwindow hlifetime hjitter
        exact (unacceptable ⟨hwindow, hlifetime, hjitter⟩).elim

theorem ofPushed_eq_ok_iff {limit : RateLimit} :
    ofPushed now settings pushed = .ok limit ↔
      IsAcceptable pushed ∧ ∃ expiresAt,
        now.add? (Span.millis
          (lifetimeMillis pushed.lifetimeSeconds settings.maxLimitSeconds.toNat)) =
            some expiresAt ∧
        limit = ⟨filterOf pushed, pushed.requestCount, pushed.windowSeconds, pushed.jitter,
          expiresAt⟩ := by
  by_cases acceptable : IsAcceptable pushed
  · rw [ofPushed_of_acceptable acceptable, and_iff_right acceptable]
    split
    · rename_i beyond
      simp [beyond]
    · rename_i expiresAt sum
      simp [sum, eq_comm]
  · obtain ⟨rejection, -, rejected⟩ := exists_rejection now settings acceptable
    rw [rejected]
    exact iff_of_false nofun fun h => acceptable h.1

/-- Exactly an acceptable entry that lives on to the end of the calendar gives no limit and no
reason that the service could be told. -/
theorem ofPushed_eq_beyondCalendar_iff :
    ofPushed now settings pushed = .error .beyondCalendar ↔
      IsAcceptable pushed ∧ Instant.endOfCalendar ≤ now.origin +
        Span.millis (lifetimeMillis pushed.lifetimeSeconds settings.maxLimitSeconds.toNat) := by
  rw [← now.add?_eq_none_iff (zero_le_millis _)]
  by_cases acceptable : IsAcceptable pushed
  · rw [ofPushed_of_acceptable acceptable, and_iff_right acceptable]
    split
    · rename_i beyond
      exact iff_of_true rfl beyond
    · rename_i expiresAt sum
      rw [sum]
      exact iff_of_false nofun nofun
  · obtain ⟨rejection, told, rejected⟩ := exists_rejection now settings acceptable
    rw [rejected]
    exact iff_of_false (fun h => told (Except.error.inj h)) fun h => acceptable h.1

theorem origin_lt_of_year_le (h : now.date.year ≤ 9999) :
    now.origin < 253402300800 * nanosPerSecond := by
  have hsecond := Instant.second_le_of_year_le h
  have hnano := now.nano_lt
  rw [Instant.origin, Instant.nanos]
  split
  · rw [nanosPerSecond]
    omega
  · rename_i hleap
    rw [Instant.isLeap, decide_eq_true_eq] at hleap
    rw [nanosPerSecond] at hleap ⊢
    omega

def lastInstant : Instant := ⟨253402300799, 999999999, by decide, by decide, by decide⟩

/-- An entry that is to live for a second longer than the longest cap. -/
def longLived : PushedLimit :=
  { PushedLimit.empty with windowSeconds := .ofNat 1, lifetimeSeconds := .ofNat (longestCap + 1) }

theorem longLived_acceptable : IsAcceptable longLived := by
  constructor <;> decide +kernel

theorem ofPushed_longLived (h : longestCap < settings.maxLimitSeconds.toNat) :
    ofPushed lastInstant settings longLived = .error .beyondCalendar := by
  have hlong : longestCap + 1 ≤ settings.maxLimitSeconds.toNat := h
  have hmillis : lifetimeMillis longLived.lifetimeSeconds settings.maxLimitSeconds.toNat =
      (longestCap + 1) * 1000 :=
    (lifetimeMillis_of_le hlong).trans lifetimeMillis_succ_longestCap
  refine ofPushed_eq_beyondCalendar_iff.2 ⟨longLived_acceptable, ?_⟩
  rw [hmillis]
  decide

theorem ofPushed_ne_beyondCalendar (h : settings.maxLimitSeconds.toNat ≤ longestCap)
    (hyear : now.date.year ≤ 9999) : ofPushed now settings pushed ≠ .error .beyondCalendar := by
  intro hbeyond
  obtain ⟨acceptable, hlate⟩ := ofPushed_eq_beyondCalendar_iff.1 hbeyond
  have hmillis := lifetimeMillis_le acceptable.lifetime h
  have horigin := origin_lt_of_year_le hyear
  rw [lifetimeMillis_longestCap, longestCap] at hmillis
  rw [Instant.endOfCalendar, Span.millis] at hlate
  rw [nanosPerSecond] at horigin hlate
  omega

theorem forall_ofPushed_ne_beyondCalendar_iff (settings : Settings) :
    (∀ now pushed, 0 ≤ now.date.year → now.date.year ≤ 9999 →
      ofPushed now settings pushed ≠ .error .beyondCalendar) ↔
      settings.maxLimitSeconds.toNat ≤ longestCap := by
  constructor
  · intro h
    refine Nat.le_of_not_lt fun hlong => ?_
    exact h lastInstant longLived (by decide) (by decide) (ofPushed_longLived hlong)
  · intro h now pushed _ hyear
    exact ofPushed_ne_beyondCalendar h hyear

end Calendar

end NodeAttestation.RateLimit
