import NodeAttestation.Proofs.Time.Elapsing
import NodeAttestation.RateLimit.Limiter

/-!
# A table of limits against the history of its updates

A table keeps less than its history: expired limits are dropped as others come, and so are those
that are replaced. At no time can that be told from the limits that are active.
-/

namespace NodeAttestation

theorem Instant.le_trans {s t u : Instant} (h : s ≤ t) (hle : t ≤ u) : s ≤ u := by
  rcases h with h | ⟨hsecond, h⟩
  · rcases hle with hle | ⟨hsecond, -⟩
    · exact .inl (by omega)
    · exact .inl (by omega)
  · rcases hle with hle | ⟨heq, hle⟩
    · exact .inl (by omega)
    · exact .inr ⟨by omega, by omega⟩

theorem Instant.le_refl (t : Instant) : t ≤ t := .inr ⟨rfl, Nat.le_refl _⟩

namespace RateLimit

/-- The limits of a history that are in force: those that have not expired and that no later one
with the same filter has replaced. -/
def inForce (now : Instant) : List RateLimit → List RateLimit
  | [] => []
  | limit :: later =>
    if limit.isExpired now || later.any (·.filter == limit.filter) then inForce now later
    else limit :: inForce now later

section InForce

variable {now later : Instant} {limit other : RateLimit} {history : List RateLimit}

theorem isExpired_of_le (expired : limit.isExpired now = true) (h : now ≤ later) :
    limit.isExpired later = true := by
  rw [isExpired, decide_eq_true_eq] at expired ⊢
  exact Instant.le_trans expired h

theorem mem_of_mem_inForce (h : limit ∈ inForce now history) : limit ∈ history := by
  induction history with
  | nil => exact h
  | cons first rest ih =>
    rw [inForce] at h
    split at h
    · exact List.mem_cons_of_mem _ (ih h)
    · rcases List.mem_cons.1 h with rfl | hrest
      · exact List.mem_cons_self
      · exact List.mem_cons_of_mem _ (ih hrest)

/-- A limit that is added takes those with the same filter out of force. -/
theorem inForce_concat (now : Instant) (history : List RateLimit) (limit : RateLimit) :
    inForce now (history ++ [limit]) =
      (inForce now history).filter (·.filter != limit.filter) ++
        [limit].filter (!·.isExpired now) := by
  induction history with
  | nil => cases hexpired : limit.isExpired now <;> simp [inForce, hexpired]
  | cons first rest ih =>
    have hadded : (rest ++ [limit]).any (·.filter == first.filter) =
        (rest.any (·.filter == first.filter) || limit.filter == first.filter) := by simp
    rw [List.cons_append, inForce, inForce, hadded, ← Bool.or_assoc, ih]
    cases hgone : first.isExpired now || rest.any (·.filter == first.filter) with
    | true => simp
    | false =>
      by_cases hfilter : limit.filter = first.filter
      · simp [hfilter]
      · simp [hfilter, Ne.symm hfilter]

theorem inForce_pairwise (now : Instant) (history : List RateLimit) :
    (inForce now history).Pairwise fun limit other => limit.filter ≠ other.filter := by
  induction history with
  | nil => exact .nil
  | cons first rest ih =>
    rw [inForce]
    split
    · exact ih
    · rename_i hkept
      refine List.pairwise_cons.2 ⟨?_, ih⟩
      intro other hother hfilter
      apply hkept
      have hmem := mem_of_mem_inForce hother
      simp only [Bool.or_eq_true, List.any_eq_true, beq_iff_eq]
      exact .inr ⟨other, hmem, hfilter.symm⟩

theorem filter_inForce_eq_nil {filter : Filter} (h : ∀ other ∈ history, other.filter ≠ filter) :
    (inForce now history).filter (·.filter == filter) = [] := by
  rw [List.filter_eq_nil_iff]
  intro other hother
  simp [h other (mem_of_mem_inForce hother)]

/-- Of the limits with one filter only the last can be in force. -/
theorem filter_inForce (now : Instant) (earlier : List RateLimit)
    (h : ∀ other ∈ history, other.filter ≠ limit.filter) :
    (inForce now (earlier ++ limit :: history)).filter (·.filter == limit.filter) =
      [limit].filter (!·.isExpired now) := by
  induction earlier with
  | nil =>
    have hlast : history.any (·.filter == limit.filter) = false := by simpa using h
    have hothers : (inForce now history).filter (·.filter == limit.filter) = [] :=
      filter_inForce_eq_nil h
    cases hexpired : limit.isExpired now <;> simp [inForce, hexpired, hlast, hothers]
  | cons first rest ih =>
    rw [List.cons_append, inForce]
    split
    · exact ih
    · rename_i hkept
      have hfilter : first.filter ≠ limit.filter := by
        intro hsame
        apply hkept
        simp [hsame]
      rw [List.filter_cons_of_neg (by simpa using hfilter)]
      exact ih

end InForce

end RateLimit

namespace LimitTable

variable {t : LimitTable} {history : List RateLimit} {now later : Instant} {limit : RateLimit}

/-- What a table that starts empty can have become by some time, and the limits that have been
applied to it until then. The clock is never put back. -/
inductive Course : LimitTable → List RateLimit → Instant → Prop
  | start (now : Instant) : Course .empty [] now
  | wait {t : LimitTable} {history : List RateLimit} {now later : Instant}
      (course : Course t history now) (h : now ≤ later) : Course t history later
  | apply {t : LimitTable} {history : List RateLimit} {now : Instant}
      (course : Course t history now) (limit : RateLimit) :
      Course (t.apply now limit) (history ++ [limit]) now
  | persist {t : LimitTable} {history : List RateLimit} {now : Instant}
      (course : Course t history now) : Course t.persist history now

/-- Limits that have expired by the time another one is applied are no longer active later. -/
theorem active_apply (t : LimitTable) (limit : RateLimit) (h : now ≤ later) :
    (t.apply now limit).active later =
      (t.active later).filter (·.filter != limit.filter) ++
        [limit].filter (!·.isExpired later) := by
  rw [active, apply, List.filter_append, active, List.filter_filter, List.filter_filter]
  congr 1
  apply List.filter_congr
  intro other _
  cases hlater : other.isExpired later with
  | true => simp
  | false =>
    have hnow : other.isExpired now = false := by
      rw [Bool.eq_false_iff]
      intro hexpired
      rw [RateLimit.isExpired_of_le hexpired h] at hlater
      cases hlater
    simp [hnow]

/-- A table cannot be told from its history, now or later. -/
def Reflects (t : LimitTable) (history : List RateLimit) (now : Instant) : Prop :=
  ∀ later, now ≤ later → t.active later = RateLimit.inForce later history

theorem Reflects.apply (reflects : t.Reflects history now) (limit : RateLimit) :
    (t.apply now limit).Reflects (history ++ [limit]) now := by
  intro later h
  rw [active_apply t limit h, reflects later h, RateLimit.inForce_concat]

theorem Course.reflects (course : Course t history now) : t.Reflects history now := by
  induction course with
  | start =>
    intro later _
    rfl
  | wait _ h ih =>
    intro later hlater
    exact ih later (Instant.le_trans h hlater)
  | apply _ limit ih => exact ih.apply limit
  | persist _ ih => exact ih

theorem mem_active_apply {other : RateLimit} (active : limit ∈ t.active now) (h : now ≤ later)
    (live : limit.isExpired later = false) (hfilter : other.filter ≠ limit.filter) :
    limit ∈ (t.apply now other).active later := by
  rw [active_apply t other h, List.mem_append]
  rw [LimitTable.active, List.mem_filter] at active
  refine .inl (List.mem_filter.2 ⟨List.mem_filter.2 ⟨active.1, by simp [live]⟩, ?_⟩)
  simpa using Ne.symm hfilter

/-- At every time the active limits are those of the whole history that are in force, in the order
in which they were applied. So no two of them have the same filter, the last limit of a filter
decides even if it has expired, and applying a limit loses none of the others before it expires. -/
theorem active_eq_inForce (course : Course t history now) :
    t.active now = RateLimit.inForce now history ∧
      (t.active now).Pairwise (fun limit other => limit.filter ≠ other.filter) ∧
      (∀ earlier limit others, history = earlier ++ limit :: others →
        (∀ other ∈ others, other.filter ≠ limit.filter) →
        (t.active now).filter (·.filter == limit.filter) =
          [limit].filter (!·.isExpired now)) ∧
      ∀ limit ∈ t.active now, ∀ other, other.filter ≠ limit.filter →
        ∀ later, now ≤ later → limit.isExpired later = false →
          limit ∈ (t.apply now other).active later := by
  have hactive := course.reflects now now.le_refl
  refine ⟨hactive, ?_, ?_, ?_⟩
  · rw [hactive]
    exact RateLimit.inForce_pairwise now history
  · rintro earlier limit others rfl hothers
    rw [hactive]
    exact RateLimit.filter_inForce now earlier hothers
  · intro limit active other hfilter later h live
    exact mem_active_apply active h live hfilter

section Replaced

def limitFor (feature : String) (expiresAt : Instant) : RateLimit :=
  ⟨⟨none, some feature, none, .empty⟩, 1, .zero, .zero, expiresAt⟩

def fifthSecond : Instant :=
  { Instant.epoch with second := 5, earliest_le := by decide, le_latest := by decide }

def tenthSecond : Instant :=
  { Instant.epoch with second := 10, earliest_le := by decide, le_latest := by decide }

def lastSecond : Instant :=
  { Instant.epoch with second := 100, earliest_le := by decide, le_latest := by decide }

/-- The second limit expires, and the first is replaced by one that has already expired. -/
def replacedHistory : List RateLimit :=
  [limitFor "chat" lastSecond, limitFor "search" tenthSecond, limitFor "chat" fifthSecond,
    limitFor "mail" lastSecond]

theorem active_eq_inForce_of_replaced :
    ∃ t, Course t replacedHistory tenthSecond ∧
      t.active tenthSecond = RateLimit.inForce tenthSecond replacedHistory ∧
      t.active tenthSecond = [limitFor "mail" lastSecond] ∧
      (t.active tenthSecond).filter (·.filter == (limitFor "chat" fifthSecond).filter) = [] := by
  have first := ((Course.start .epoch).apply (limitFor "chat" lastSecond)).apply
    (limitFor "search" tenthSecond)
  have waited := first.wait (show Instant.epoch ≤ tenthSecond by decide)
  have course := (waited.apply (limitFor "chat" fifthSecond)).apply (limitFor "mail" lastSecond)
  obtain ⟨active, -, last, -⟩ := active_eq_inForce course
  have decided := last [limitFor "chat" lastSecond, limitFor "search" tenthSecond]
    (limitFor "chat" fifthSecond) [limitFor "mail" lastSecond] rfl (by decide)
  exact ⟨_, course, active, by decide, decided⟩

end Replaced

end LimitTable

end NodeAttestation
