import NodeAttestation.Client

/-!
# Receiving limits

A client that receives limits changes its limiter and its log and nothing else, unless one of the
limits is fatal to it.
-/

namespace NodeAttestation

/-- A limit that arrives while the clock cannot be read, or that would live on beyond the calendar,
with what was read off the clock. -/
def IsFatal (settings : Settings) : Option Instant × PushedLimit → Prop
  | (none, _) => True
  | (some now, pushed) => RateLimit.ofPushed now settings pushed = .error .beyondCalendar

namespace Client

variable {settings : Settings} {entry : PushedLimit} {limit : RateLimit} {c next : Client}

section Frame

theorem applyLimit?_frame (h : c.applyLimit? limit = some next) :
    ∃ limiter log, next = { c with limiter := limiter, log := log } := by
  obtain ⟨limiter, -, rfl⟩ := Option.map_eq_some_iff.1 h
  exact ⟨limiter, c.log ++ [.applied limit], rfl⟩

theorem receiveLimit?_frame (h : c.receiveLimit? settings entry = some next) :
    ∃ limiter log, next = { c with limiter := limiter, log := log } := by
  rw [receiveLimit?] at h
  split at h
  · cases h
  · split at h
    · exact applyLimit?_frame h
    · cases h
    · cases h
      exact ⟨c.limiter, c.log, rfl⟩

theorem receiveLimits_frame (settings : Settings) (entries : List PushedLimit) (c : Client) :
    ∃ limiter log,
      (c.receiveLimits settings entries).2 = { c with limiter := limiter, log := log } := by
  induction entries generalizing c with
  | nil => exact ⟨c.limiter.persist, c.log ++ [.persisted], rfl⟩
  | cons entry entries ih =>
    rw [receiveLimits]
    split
    · rename_i next hnext
      obtain ⟨limiter, log, rfl⟩ := receiveLimit?_frame hnext
      exact ih _
    · exact ⟨c.limiter, c.log, rfl⟩

theorem eq_of_receiveLimits {entries : List PushedLimit} {done : Option Unit}
    (received : c.receiveLimits settings entries = (done, next)) :
    ∃ limiter log, next = { c with limiter := limiter, log := log } := by
  have hframe := receiveLimits_frame settings entries c
  rwa [received] at hframe

end Frame

section Fatal

theorem exists_applyLimit? {now : Instant} (hnow : c.now? = some now) (limit : RateLimit) :
    ∃ next, c.applyLimit? limit = some next := by
  rw [applyLimit?, hnow]
  cases c.limiter with
  | table t => exact ⟨_, rfl⟩
  | record r => exact ⟨_, rfl⟩

theorem receiveLimit?_eq_none_iff :
    c.receiveLimit? settings entry = none ↔ IsFatal settings (c.now?, entry) := by
  rw [receiveLimit?]
  cases hnow : c.now? with
  | none => exact iff_of_true rfl trivial
  | some now =>
    dsimp only
    rw [IsFatal]
    split
    · rename_i limit hok
      obtain ⟨next, hnext⟩ := exists_applyLimit? hnow limit
      simp [hnext, hok]
    · rename_i hbeyond
      exact iff_of_true rfl hbeyond
    · rename_i rejection hother hrejected
      have hne : rejection ≠ .beyondCalendar := hother
      simp [hrejected, hne]

theorem receiveLimits_eq_none_iff (settings : Settings) (entries : List PushedLimit) (c : Client) :
    (c.receiveLimits settings entries).1 = none ↔
      ∃ entry ∈ entries, IsFatal settings (c.now?, entry) := by
  induction entries generalizing c with
  | nil => simp [receiveLimits]
  | cons entry entries ih =>
    simp only [List.mem_cons, exists_eq_or_imp]
    rw [receiveLimits]
    split
    · rename_i next hnext
      have hsafe : ¬IsFatal settings (c.now?, entry) := by
        rw [← receiveLimit?_eq_none_iff, hnext]
        simp
      obtain ⟨limiter, log, rfl⟩ := receiveLimit?_frame hnext
      exact (ih _).trans (or_iff_right hsafe).symm
    · rename_i hnone
      exact iff_of_true rfl (.inl (receiveLimit?_eq_none_iff.1 hnone))

end Fatal

end Client

end NodeAttestation
