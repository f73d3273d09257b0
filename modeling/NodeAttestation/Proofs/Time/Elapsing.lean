import NodeAttestation.Time.Clock

/-!
# Time that passes

What is read off a clock that runs on, and what is left until an instant. A clock tells no leap
second, but the instant may lie in one.
-/

namespace NodeAttestation

namespace Instant

variable {s t u : Instant}

theorem lt_of_le_of_lt (hle : s ≤ t) (hlt : t < u) : s < u := by
  rcases hle with hle | ⟨hsecond, hle⟩
  · rcases hlt with hlt | ⟨heq, -⟩
    · exact .inl (by omega)
    · exact .inl (by omega)
  · rcases hlt with hlt | ⟨heq, hlt⟩
    · exact .inl (by omega)
    · exact .inr ⟨by omega, by omega⟩

theorem not_le_iff : ¬t ≤ s ↔ s < t := by
  change ¬(t.second < s.second ∨ t.second = s.second ∧ t.nano ≤ s.nano) ↔
    (s.second < t.second ∨ s.second = t.second ∧ s.nano < t.nano)
  omega

theorem isLeap_iff : t.isLeap = true ↔ 1000000000 ≤ t.nano := by
  rw [isLeap, decide_eq_true_iff, nanosPerSecond]
  omega

theorem nano_lt_of_isLeap_eq_false (h : t.isLeap = false) : t.nano < 1000000000 := by
  rw [Bool.eq_false_iff, ne_eq, isLeap_iff] at h
  omega

theorem leapBefore_cases (e t : Instant) :
    (1000000000 ≤ e.nano ∧ e.secondOfDay < t.secondOfDay) ∧ leapBefore e t = nanosPerSecond ∨
      ¬(1000000000 ≤ e.nano ∧ e.secondOfDay < t.secondOfDay) ∧ leapBefore e t = 0 := by
  rw [leapBefore]
  split
  · rename_i hcounts
    rw [Bool.and_eq_true, decide_eq_true_eq, isLeap_iff] at hcounts
    exact .inl ⟨hcounts, rfl⟩
  · rename_i hcounts
    rw [Bool.and_eq_true, decide_eq_true_eq, isLeap_iff] at hcounts
    exact .inr ⟨hcounts, rfl⟩

theorem le_of_nanos_le (hs : s.isLeap = false) (ht : t.isLeap = false) (h : s.nanos ≤ t.nanos) :
    s ≤ t := by
  have hs := nano_lt_of_isLeap_eq_false hs
  have ht := nano_lt_of_isLeap_eq_false ht
  rw [nanos, nanos, nanosPerSecond] at h
  by_cases hlt : s.second < t.second
  · exact .inl hlt
  · exact .inr ⟨by omega, by omega⟩

theorem sub_of_isLeap_eq_false (e : Instant) (h : t.isLeap = false) :
    e.sub t = e.nanos - t.nanos - leapBefore e t := by
  have hzero : leapBefore t e = 0 := by
    simp [leapBefore, h]
  rw [sub, hzero, Int.add_zero]

/-- As time passes, the span that is left until an instant does not come to exceed a number of whole
days. At midnight it grows by the leap second that begins to count, but a leap second at which whole
days end is the last second of its day and counts all along. -/
theorem sub_le_of_nanos_le {e : Instant} {days : Nat} (hs : s.isLeap = false)
    (ht : t.isLeap = false) (h : s.nanos ≤ t.nanos) (hsub : e.sub s ≤ Span.hours (24 * days)) :
    e.sub t ≤ Span.hours (24 * days) := by
  rw [sub_of_isLeap_eq_false e hs] at hsub
  rw [sub_of_isLeap_eq_false e ht]
  have hs := nano_lt_of_isLeap_eq_false hs
  have ht := nano_lt_of_isLeap_eq_false ht
  have he := e.nano_lt
  have hbefore := leapBefore_cases e s
  have hafter := leapBefore_cases e t
  generalize leapBefore e s = before at hsub hbefore
  generalize leapBefore e t = after at hafter ⊢
  simp only [secondOfDay, secondsPerDay, nanos, Span.hours, Span.seconds, nanosPerSecond]
    at h hsub hbefore hafter ⊢
  rcases hbefore with ⟨hcounted, rfl⟩ | ⟨hcounted, rfl⟩
  · rcases hafter with ⟨hcounts, rfl⟩ | ⟨hcounts, rfl⟩
    all_goals
      change @LE.le Int _ _ _ at hsub ⊢
      omega
  · rcases hafter with ⟨hcounts, rfl⟩ | ⟨hcounts, rfl⟩
    all_goals
      change @LE.le Int _ _ _ at hsub ⊢
      omega

end Instant

namespace Clock

variable {clock later : Clock} {s t : Instant}

theorem now?_eq_some (h : clock.now? = some t) : t.nanos = clock.nanos ∧ t.isLeap = false := by
  rw [now?] at h
  split at h
  · cases h
  · rw [Instant.ofNanos?, Instant.ofParts?] at h
    split at h
    · cases h
      simp only [Instant.nanos, Instant.isLeap, decide_eq_false_iff_not]
      rw [nanosPerSecond]
      omega
    · cases h

theorem now?_le (hle : clock.nanos ≤ later.nanos) (hs : clock.now? = some s)
    (ht : later.now? = some t) : s ≤ t := by
  obtain ⟨hs, hsleap⟩ := now?_eq_some hs
  obtain ⟨ht, htleap⟩ := now?_eq_some ht
  apply Instant.le_of_nanos_le hsleap htleap
  rw [hs, ht]
  exact hle

end Clock

end NodeAttestation
