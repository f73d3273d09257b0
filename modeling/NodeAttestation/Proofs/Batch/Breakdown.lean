import NodeAttestation.Proofs.Batch.Run
import NodeAttestation.Proofs.RateLimit.Lifetime
import NodeAttestation.Proofs.RateLimit.Receiving
import NodeAttestation.Settings.Text

/-! # What brings a batch down: limits that arrive when they cannot be dated. -/

namespace NodeAttestation.Batch

variable {plan : BatchPlan} {others : Client → Client → Prop} {first b next : Batch}
  {h gains : History}

theorem phase_ne_crashed_of_unfailed (h : b.hasFailed = false) :
    b.phase ≠ .ended (.error .crashed) := by
  intro hphase
  rw [hasFailed, hphase] at h
  cases h

theorem Step.phase_eq_crashed_iff (step : Step plan b gains next) :
    next.phase = .ended (.error .crashed) ↔
      ∃ reading ∈ gains.pushed, IsFatal plan.settings reading := by
  have hunfailed := phase_ne_crashed_of_unfailed step.hasFailed_eq_false
  have hnothing (hphase : next.phase ≠ .ended (.error .crashed)) (hpushed : gains.pushed = []) :
      next.phase = .ended (.error .crashed) ↔
        ∃ reading ∈ gains.pushed, IsFatal plan.settings reading := by
    rw [hpushed]
    exact iff_of_false hphase fun ⟨_, hmem, _⟩ => nomatch hmem
  cases step with
  | exhausted | held | persisted | concluded | refused | vacant =>
    exact hnothing (fun h => nomatch h) rfl
  | ignored | went | finished | counted => exact hnothing hunfailed rfl
  | arrived phase _ _ _ admission =>
    refine hnothing ?_ rfl
    rw [admission.phase]
    exact hunfailed
  | released _ _ admission | resumed _ _ admission =>
    refine hnothing ?_ rfl
    rw [admission.phase]
    exact fun h => nomatch h
  | @limited _ _ entries client _ _ _ _ applied phase' =>
    have hsafe := Client.receiveLimits_eq_none_iff plan.settings entries b.client
    rw [applied] at hsafe
    refine iff_of_false ?_ ?_
    · rcases phase' with rfl | rfl <;> exact fun h => nomatch h
    · rintro ⟨reading, hmem, hfatal⟩
      obtain ⟨entry, hentry, rfl⟩ := List.mem_map.1 hmem
      exact nomatch hsafe.2 ⟨entry, hentry, hfatal⟩
  | @broken _ _ entries client _ _ _ crashed =>
    have hfatal := Client.receiveLimits_eq_none_iff plan.settings entries b.client
    rw [crashed] at hfatal
    obtain ⟨entry, hentry, hfatal⟩ := hfatal.1 rfl
    exact iff_of_true rfl ⟨_, List.mem_map_of_mem hentry, hfatal⟩

theorem Run.phase_eq_crashed_iff (run : Run plan others first b h)
    (reading : first.phase = .reading) :
    b.phase = .ended (.error .crashed) ↔
      ∃ reading ∈ h.pushed, IsFatal plan.settings reading := by
  refine run.invariant (I := fun b h => b.phase = .ended (.error .crashed) ↔
    ∃ reading ∈ h.pushed, IsFatal plan.settings reading) ?_ ?_ ?_
  · rw [reading]
    exact iff_of_false (fun h => nomatch h) fun ⟨_, hmem, _⟩ => nomatch hmem
  · intro b h gains next _ ih step
    -- A step is only possible while nothing fatal has been read.
    have hbefore : ¬∃ reading ∈ h.pushed, IsFatal plan.settings reading := fun hfatal =>
      phase_ne_crashed_of_unfailed step.hasFailed_eq_false (ih.2 hfatal)
    rw [step.phase_eq_crashed_iff]
    constructor
    · rintro ⟨reading, hmem, hfatal⟩
      exact ⟨reading, List.mem_append_right _ hmem, hfatal⟩
    · rintro ⟨reading, hmem, hfatal⟩
      rcases List.mem_append.1 hmem with hold | hnew
      · exact absurd ⟨reading, hold, hfatal⟩ hbefore
      · exact ⟨reading, hnew, hfatal⟩
  · intro b h client ih _
    exact ih

theorem exists_act?_of_fatal (plan : BatchPlan) {entries : List PushedLimit}
    {items : List (Frame.Item Response)} (phase : b.phase = .reading)
    (messages : b.messages = .message (.limits entries) :: items)
    (fatal : ∃ entry ∈ entries, IsFatal plan.settings (b.client.now?, entry)) :
    ∃ next, b.act? plan .receive = some next ∧ next.phase = .ended (.error .crashed) := by
  have hnone := (Client.receiveLimits_eq_none_iff plan.settings entries b.client).2 fatal
  rw [act?, receive?, phase, messages]
  refine ⟨_, rfl, ?_⟩
  rw [receiveItem, Error.ofItem]
  dsimp only [receiveMessage, receiveLimits]
  cases hreceived : b.client.receiveLimits plan.settings entries with
  | mk done client =>
    rw [hreceived] at hnone
    dsimp only at hnone
    rw [hnone]
    rfl

/-- A clock that can be read, and tells a time up to the end of the year 9999. -/
def TellsYear : Option Instant → Prop
  | none => False
  | some now => 0 ≤ now.date.year ∧ now.date.year ≤ 9999

theorem clock_of_mem_limitsRead {reading : Option Instant × PushedLimit}
    (h : reading ∈ b.limitsRead next) : reading.1 = b.client.now? := by
  obtain ⟨item, _, hmem⟩ := List.mem_flatMap.1 h
  obtain ⟨entry, _, rfl⟩ := List.mem_map.1 hmem
  rfl

section LongLived

def planUnder (settings : Settings) : BatchPlan := { samplePlan 1 with settings := settings }

def lateClient : Client := { sampleClient with clock := ⟨RateLimit.lastInstant.nanos⟩ }

theorem now?_lateClient : lateClient.now? = some RateLimit.lastInstant := by decide

def longLivedMessage : Frame.Item Response := .message (.limits [RateLimit.longLived])

/-- Under a cap that is too long, one message is enough to bring a batch down. -/
theorem exists_run_crashed {settings : Settings}
    (h : RateLimit.longestCap < settings.maxLimitSeconds.toNat) :
    ∃ b h, Run (planUnder settings) (fun c next => next = c)
        ((planUnder settings).begin [longLivedMessage] lateClient) b h ∧
      (∀ reading ∈ h.pushed, TellsYear reading.1) ∧
      b.phase = .ended (.error .crashed) := by
  have hnow : ((planUnder settings).begin [longLivedMessage] lateClient).client.now? =
      some RateLimit.lastInstant := now?_lateClient
  have hmessages : ((planUnder settings).begin [longLivedMessage] lateClient).messages =
      [.message (.limits [RateLimit.longLived])] := rfl
  have hfatal : ∃ entry ∈ [RateLimit.longLived], IsFatal settings
      (((planUnder settings).begin [longLivedMessage] lateClient).client.now?, entry) := by
    rw [hnow]
    exact ⟨_, List.mem_cons_self, RateLimit.ofPushed_longLived h⟩
  obtain ⟨next, possible, crashed⟩ :=
    exists_act?_of_fatal (planUnder settings) rfl hmessages hfatal
  refine ⟨next, _, Run.start.act possible, ?_, crashed⟩
  intro reading hmem
  rw [clock_of_mem_limitsRead hmem, hnow]
  exact ⟨by decide, by decide⟩

end LongLived

/-- A limit that could not be dated brings a batch down, and nothing else does. While the clock
tells a time up to the end of the year 9999, no limit is such if and only if the cap on lifetimes
is short enough. -/
theorem crashed_iff_beyondCalendar (settings : Settings) :
    (∀ now pushed, RateLimit.ofPushed now settings pushed = .error .beyondCalendar ↔
      RateLimit.IsAcceptable pushed ∧ Instant.endOfCalendar ≤ now.origin + Span.millis
        (RateLimit.lifetimeMillis pushed.lifetimeSeconds settings.maxLimitSeconds.toNat)) ∧
    ((∀ now pushed, TellsYear (some now) →
        RateLimit.ofPushed now settings pushed ≠ .error .beyondCalendar) ↔
      settings.maxLimitSeconds.toNat ≤ RateLimit.longestCap) ∧
    (∀ {plan others items c b h}, plan.settings = settings →
      Run plan others (plan.begin items c) b h →
      (b.result? = some (.error .crashed) ↔ ∃ reading ∈ h.pushed, IsFatal settings reading)) ∧
    ((∀ {plan others items c b h}, plan.settings = settings →
        Run plan others (plan.begin items c) b h → (∀ reading ∈ h.pushed, TellsYear reading.1) →
        b.result? ≠ some (.error .crashed)) ↔
      settings.maxLimitSeconds.toNat ≤ RateLimit.longestCap) := by
  have hbatch : ∀ {plan others items c b h}, plan.settings = settings →
      Run plan others (plan.begin items c) b h →
      (b.result? = some (.error .crashed) ↔ ∃ reading ∈ h.pushed, IsFatal settings reading) := by
    rintro plan others items c b h rfl run
    rw [result?_eq_some]
    exact run.phase_eq_crashed_iff rfl
  refine ⟨fun now pushed => RateLimit.ofPushed_eq_beyondCalendar_iff, ?_, hbatch, ?_, ?_⟩
  · rw [← RateLimit.forall_ofPushed_ne_beyondCalendar_iff]
    exact ⟨fun h now pushed first last => h now pushed ⟨first, last⟩,
      fun h now pushed tells => h now pushed tells.1 tells.2⟩
  · intro h
    refine Nat.le_of_not_lt fun hlong => ?_
    obtain ⟨b, later, run, tells, crashed⟩ := exists_run_crashed hlong
    exact h rfl run tells (result?_eq_some.2 crashed)
  · intro hcap plan others items c b h hsettings run tells crashed
    obtain ⟨⟨clock, pushed⟩, hmem, hfatal⟩ := (hbatch hsettings run).1 crashed
    have htells := tells _ hmem
    cases clock with
    | none => exact htells
    | some now => exact RateLimit.ofPushed_ne_beyondCalendar hcap htells.2 hfatal

def largestCap : Settings := { Settings.initial with maxLimitSeconds := 18446744073709551615 }

theorem crashed_of_longLived :
    ∃ b h, Run (planUnder largestCap) (fun c next => next = c)
        ((planUnder largestCap).begin [longLivedMessage] lateClient) b h ∧
      b.result? = some (.error .crashed) ∧ ∃ reading ∈ h.pushed, IsFatal largestCap reading := by
  have hlong : RateLimit.longestCap < largestCap.maxLimitSeconds.toNat := by decide
  obtain ⟨b, h, run, _, crashed⟩ := exists_run_crashed hlong
  have result := result?_eq_some.2 crashed
  exact ⟨b, h, run, result, ((crashed_iff_beyondCalendar largestCap).2.2.1 rfl run).1 result⟩

/-- A limit that is to live for ten to the three hundred seconds. -/
def endless : PushedLimit :=
  { PushedLimit.empty with windowSeconds := .ofNat 1, lifetimeSeconds := .ofDecimal 1 300 }

def isCrashed : Result → Bool
  | .error .crashed => true
  | _ => false

theorem eq_crashed_of_isCrashed {result : Result} (h : isCrashed result = true) :
    result = .error .crashed := by
  cases result with
  | ok fetched => cases h
  | error failure =>
    cases failure with
    | error e => cases h
    | crashed => rfl

/-- Settings with the largest cap are accepted, and a limit that the service then pushes brings the
client down. -/
theorem crashed_of_largestCap :
    (Settings.ofJson "\x7b\"maxRateLimitTtlSecs\": 18446744073709551615\x7d").toOption =
        some largestCap ∧
      RateLimit.ofPushed .epoch largestCap endless = .error .beyondCalendar ∧
      ((sampleInvocation largestCap .empty).fetchBatch (sampleServices [.limits [endless]])
        sampleSetting 0 0 sampleClient).1 =
        .error .crashed := by
  refine ⟨by decide +kernel, ?_, eq_crashed_of_isCrashed (by decide +kernel)⟩
  refine RateLimit.ofPushed_eq_beyondCalendar_iff.2 ⟨⟨?_, ?_, ?_⟩, ?_⟩
  all_goals decide +kernel

end NodeAttestation.Batch
