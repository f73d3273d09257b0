import NodeAttestation.Proofs.Invocation.Rounds

/-!
# Failures that leave no trace

Whatever keeps an invocation from fetching at all leaves the client as it was. A reply that brings
no batch leaves the cache and the limiter as the batches before it have left them.
-/

namespace NodeAttestation

/-- Whether an error keeps an invocation from fetching. -/
def Error.isPremature : Error → Bool
  | .attestationsExist | .missingBundle | .missingFeature | .headerValue => true
  | _ => false

/-- Why a reply brings no batch: there is no connection, it breaks, or the service declines. -/
def Reply.refusal? : Reply → Option Error
  | .unreachable reason => some (.transport reason)
  | .broken reason => some (.transport reason)
  | .response status _ => if status = 200 then none else some (.status status)

/-- A client has opened exchanges since, but nothing has come of them. -/
def Client.OnlyAsked (c next : Client) : Prop :=
  ∃ actions, (∀ action ∈ actions, action.isExchange = true) ∧
    next = { c with log := c.log ++ actions }

namespace Client

variable {c next : Client} {action : Action}

theorem onlyAsked_record (c : Client) (h : action.isExchange = true) :
    c.OnlyAsked (c.record action) :=
  ⟨[action], List.forall_mem_singleton.2 h, rfl⟩

theorem OnlyAsked.record (asked : c.OnlyAsked next) (h : action.isExchange = true) :
    c.OnlyAsked (next.record action) := by
  obtain ⟨actions, hactions, rfl⟩ := asked
  refine ⟨actions ++ [action], ?_, by simp [Client.record]⟩
  exact List.forall_mem_append.2 ⟨hactions, List.forall_mem_singleton.2 h⟩

end Client

theorem Error.isPremature_of_ofItem {α : Type} {item : Frame.Item α} {e : Error}
    (h : Error.ofItem item = .error e) : e.isPremature = false := by
  cases item with
  | message value => cases h
  | undecodable fault =>
    cases h
    rfl
  | broken fault =>
    cases h
    rfl

namespace Reply

variable {reply : Reply}

theorem isPremature_of_refusal {e : Error} (h : reply.refusal? = some e) :
    e.isPremature = false := by
  cases reply with
  | response status body =>
    rw [refusal?] at h
    split at h
    · cases h
    · cases h
      rfl
  | _ =>
    cases h
    rfl

theorem eq_of_refusal?_eq_none (h : reply.refusal? = none) :
    ∃ body, reply = .response 200 body := by
  cases reply with
  | response status body =>
    rw [refusal?] at h
    split at h
    · rename_i hstatus
      exact ⟨body, by rw [hstatus]⟩
    · cases h
  | _ => cases h

end Reply

namespace Batch

/-- A batch that fails does so for a reason that comes with its messages. -/
def FailsLate (b : Batch) : Prop :=
  ∀ e, b.phase = .ended (.error (.error e)) → e.isPremature = false

variable {plan : BatchPlan} {others : Client → Client → Prop} {first b next : Batch}
  {h gains : History}

theorem failsLate_of_unfailed (h : b.hasFailed = false) : b.FailsLate := by
  intro e hphase
  rw [hasFailed, hphase] at h
  cases h

theorem Step.failsLate (step : Step plan b gains next) : next.FailsLate := by
  have unfailed := step.hasFailed_eq_false
  have same (hphase : next.phase = b.phase) : next.FailsLate := by
    apply failsLate_of_unfailed
    rwa [hasFailed, hphase]
  intro e hphase
  cases step with
  | exhausted | held | persisted | concluded | broken => cases hphase
  | ignored | went | finished | counted => exact same rfl e hphase
  | arrived _ _ _ _ admission => exact same admission.phase e hphase
  | released _ _ admission | resumed _ _ admission =>
    rw [admission.phase] at hphase
    cases hphase
  | limited _ _ _ _ reading =>
    rcases reading with rfl | rfl <;> cases hphase
  | refused _ _ decoded =>
    cases hphase
    exact Error.isPremature_of_ofItem decoded
  | vacant =>
    cases hphase
    rfl

theorem Run.failsLate (run : Run plan others first b h) (reading : first.phase = .reading) :
    b.FailsLate := by
  refine run.invariant (I := fun b _ => b.FailsLate) ?_ ?_ ?_
  · intro e hphase
    rw [reading] at hphase
    cases hphase
  · intro b h gains next _ _ step
    exact step.failsLate
  · intro b h client late _
    exact late

end Batch

namespace BatchPlan

variable (plan : BatchPlan) (schedule : Schedule) (request : Request) {reply : Reply} (c : Client)

theorem fetch_of_refusal {e : Error} (refused : reply.refusal? = some e) :
    (plan.fetch schedule request reply c).1 = .error (.error e) ∧
      c.OnlyAsked (plan.fetch schedule request reply c).2 := by
  have connecting : c.OnlyAsked (c.record (.connecting plan.job.request)) :=
    c.onlyAsked_record rfl
  cases reply with
  | unreachable reason =>
    cases refused
    exact ⟨rfl, connecting⟩
  | broken reason =>
    cases refused
    exact ⟨rfl, connecting.record rfl⟩
  | response status body =>
    have hstatus : status ≠ 200 := by
      rintro rfl
      cases refused
    rw [Reply.refusal?, if_neg hstatus] at refused
    cases refused
    rw [fetch]
    simp only [hstatus, if_false, true_and]
    exact connecting.record rfl

theorem isPremature_of_fetch {e : Error}
    (failed : (plan.fetch schedule request reply c).1 = .error (.error e)) :
    e.isPremature = false := by
  cases refused : reply.refusal? with
  | some reason =>
    obtain ⟨hresult, -⟩ := plan.fetch_of_refusal schedule request c refused
    rw [hresult] at failed
    cases failed
    exact Reply.isPremature_of_refusal refused
  | none =>
    obtain ⟨body, rfl⟩ := Reply.eq_of_refusal?_eq_none refused
    obtain ⟨last, h, run, ended, -⟩ := Batch.exists_run_of_process plan schedule body
      ((c.record (.connecting plan.job.request)).record (.requested request))
    rw [fetch, if_pos rfl] at failed
    rw [failed, Batch.result?_eq_some] at ended
    exact run.failsLate rfl e ended

end BatchPlan

namespace Invocation

variable {i : Invocation} {services : Services} {setting : Setting}

theorem round_of_refusal (i : Invocation) (services : Services) (setting : Setting)
    {attempt : Nat} (batch : Nat) (c : Client) {e : Error}
    (refused : (services.network attempt).refusal? = some e) :
    (i.round services setting attempt batch c).result = .error (.error e) ∧
      (i.round services setting attempt batch c).before.OnlyAsked
        (i.round services setting attempt batch c).after :=
  BatchPlan.fetch_of_refusal _ _ _ _ refused

section Rounds

variable {count attempt batch : Nat} {c last : Client} {rounds : List Round} {result : Result}

theorem Rounds.isPremature {e : Error}
    (made : Rounds i services setting count attempt batch c rounds result last)
    (failed : result = .error (.error e)) : e.isPremature = false := by
  obtain ⟨earlier, final, rfl, hfinal, -⟩ := made.eq_append_of_error failed
  have late : ∀ round ∈ earlier ++ [final], ∀ e, round.result = .error (.error e) →
      e.isPremature = false :=
    made.forall_mem fun _ _ _ _ => BatchPlan.isPremature_of_fetch _ _ _ _
  exact late final (by simp) e hfinal

theorem Rounds.length_eq {batches : List FetchedBatch}
    (made : Rounds i services setting count attempt batch c rounds result last)
    (ended : result = .ok batches) : batches.length = count := by
  obtain ⟨hbatches, -, hids⟩ := made.responses_of_ok ended
  have hlength := congrArg List.length hbatches
  have hcount := congrArg List.length hids
  simp only [List.length_map, List.length_range'] at hlength hcount
  omega

/-- A round with a reply that brings no batch is the last. -/
theorem Rounds.of_refusal {n : Nat} {round : Round} {e : Error}
    (made : Rounds i services setting count attempt batch c rounds result last)
    (found : rounds[n]? = some round)
    (refused : (services.network (attempt + n)).refusal? = some e) :
    rounds.length = n + 1 ∧ result = .error (.error e) ∧ round.before.OnlyAsked last := by
  obtain ⟨before, opened⟩ := made.exists_eq_round found
  obtain ⟨failed, asked⟩ := i.round_of_refusal services setting (batch + n) before refused
  rw [← opened] at failed asked
  obtain ⟨hlength, hresult, rfl⟩ := made.eq_of_failed found failed
  exact ⟨hlength, hresult, asked⟩

end Rounds

section Runs

variable {c last : Client} {result : Result}

/-- All that an invocation can come to: nothing is fetched, be it that there is nothing to fetch or
that something is missing, or batches are fetched in rounds. -/
inductive Runs (i : Invocation) (services : Services) (c : Client) : Result → Client → Prop
  | nothing (underived : Workload.derive? i.pipeline = none) : Runs i services c (.ok []) c
  | unprepared {workload : Workload} {failure : Failure}
      (derived : Workload.derive? i.pipeline = some workload)
      (failed : i.prepare workload c = .error failure) : Runs i services c (.error failure) c
  | fetching {workload : Workload} {setting : Setting} {rounds : List Round} {result : Result}
      {last : Client} (derived : Workload.derive? i.pipeline = some workload)
      (prepared : i.prepare workload c = .ok setting)
      (made : Rounds i services setting (i.selection.range i.limits.batches).count 0
        (i.selection.range i.limits.batches).first c rounds result last) :
      Runs i services c result last

theorem run_runs (i : Invocation) (services : Services) (c : Client) :
    i.Runs services c (i.run services c).1 (i.run services c).2 := by
  cases derived : Workload.derive? i.pipeline with
  | none =>
    rw [run, derived]
    exact .nothing derived
  | some workload =>
    cases prepared : i.prepare workload c with
    | error failure =>
      rw [run, derived]
      dsimp only
      rw [prepared]
      exact .unprepared derived prepared
    | ok setting =>
      rw [run_eq_fetchBatches c derived prepared]
      obtain ⟨rounds, made⟩ := i.exists_rounds services setting _ 0 _ c
      exact .fetching derived prepared made

theorem count_pos (i : Invocation) : 0 < (i.selection.range i.limits.batches).count := by
  cases i.selection with
  | all => exact Nat.lt_of_lt_of_le Nat.one_pos (Nat.le_max_right _ _)
  | single batch => exact Nat.one_pos

theorem Runs.eq_ok_nil_iff (runs : i.Runs services c result last) :
    result = .ok [] ↔ Workload.derive? i.pipeline = none := by
  cases runs with
  | nothing underived => exact iff_of_true rfl underived
  | unprepared derived => simp [derived]
  | fetching derived prepared made =>
    have hcount := i.count_pos
    refine iff_of_false ?_ (by simp [derived])
    intro ended
    have hlength := made.length_eq ended
    rw [List.length_nil] at hlength
    omega

theorem Runs.eq_of_ok_nil (runs : i.Runs services c result last) (ended : result = .ok []) :
    last = c := by
  have underived := runs.eq_ok_nil_iff.1 ended
  cases runs with
  | nothing => rfl
  | unprepared => rfl
  | fetching derived =>
    rw [derived] at underived
    cases underived

theorem Runs.eq_of_isPremature {e : Error} (runs : i.Runs services c result last)
    (failed : result = .error (.error e)) (premature : e.isPremature = true) : last = c := by
  cases runs with
  | nothing => rfl
  | unprepared => rfl
  | fetching _ _ made =>
    rw [made.isPremature failed] at premature
    cases premature

end Runs

/-- What an invocation comes to without a batch leaves the client as it was: no batches, which is
the result for a pipeline that names no workload and for no other, and the errors that come up
before fetching. If a reply brings no batch, its round is the last, and it leaves the client as it
has found it but for the exchange in the log. -/
theorem unchanged_of_refusal (i : Invocation) (services : Services) (c : Client) :
    ((i.run services c).1 = .ok [] ↔ Workload.derive? i.pipeline = none) ∧
      ((i.run services c).1 = .ok [] → (i.run services c).2 = c) ∧
      (∀ e, (i.run services c).1 = .error (.error e) → e.isPremature = true →
        (i.run services c).2 = c) ∧
      ∀ workload setting, Workload.derive? i.pipeline = some workload →
        i.prepare workload c = .ok setting →
        ∃ rounds, Rounds i services setting (i.selection.range i.limits.batches).count 0
            (i.selection.range i.limits.batches).first c rounds (i.run services c).1
            (i.run services c).2 ∧
          Round.Chain c rounds (i.run services c).2 ∧
          ∀ n round e, rounds[n]? = some round → (services.network n).refusal? = some e →
            rounds.length = n + 1 ∧ (i.run services c).1 = .error (.error e) ∧
              round.before.OnlyAsked (i.run services c).2 := by
  have runs := i.run_runs services c
  refine ⟨runs.eq_ok_nil_iff, runs.eq_of_ok_nil, ?_, ?_⟩
  · intro e failed premature
    exact runs.eq_of_isPremature failed premature
  · intro workload setting derived prepared
    rw [run_eq_fetchBatches c derived prepared]
    obtain ⟨rounds, made⟩ := i.exists_rounds services setting
      (i.selection.range i.limits.batches).count 0 (i.selection.range i.limits.batches).first c
    refine ⟨rounds, made, made.chain, ?_⟩
    intro n round e found refused
    rw [← Nat.zero_add n] at refused
    exact made.of_refusal found refused

section Refused

/-- An invocation on behalf of a caller who names no bundle. -/
def namelessInvocation : Invocation := { fourInvocation with source := .prewarm }

/-- A caller without a bundle gets nothing, and the refusal of the third batch leaves the first two
cached. -/
theorem unchanged_of_refusal_of_brokenServices :
    (namelessInvocation.run brokenServices Batch.sampleClient).1 =
        .error (.error .missingBundle) ∧
      (namelessInvocation.run brokenServices Batch.sampleClient).2 = Batch.sampleClient ∧
      ∃ round : Round, round.before.OnlyAsked
          (fourInvocation.run brokenServices Batch.sampleClient).2 ∧
        (fourInvocation.run brokenServices Batch.sampleClient).1 =
          .error (.error (.status 503)) ∧
        (round.before.cache.tracked Batch.sampleJob.workload 1).contains "uid-a" = true := by
  have nameless : (namelessInvocation.run brokenServices Batch.sampleClient).1 =
      .error (.error .missingBundle) := by rfl
  obtain ⟨-, -, premature, -⟩ :=
    namelessInvocation.unchanged_of_refusal brokenServices Batch.sampleClient
  refine ⟨nameless, premature _ nameless rfl, ?_⟩
  have derived : Workload.derive? fourInvocation.pipeline = some Batch.sampleJob.workload := by rfl
  have prepares : (fourInvocation.prepare Batch.sampleJob.workload
      Batch.sampleClient).toOption.isSome = true := by decide +kernel
  have opened : (fourInvocation.run brokenServices Batch.sampleClient).2.log.filterMap
      Action.connecting? = [⟨0⟩, ⟨2⟩, ⟨4⟩] := by decide +kernel
  have cached : ((fourInvocation.run brokenServices Batch.sampleClient).2.cache.tracked
      Batch.sampleJob.workload 1).contains "uid-a" = true := by decide +kernel
  obtain ⟨-, -, -, fetching⟩ :=
    fourInvocation.unchanged_of_refusal brokenServices Batch.sampleClient
  cases prepared : fourInvocation.prepare Batch.sampleJob.workload Batch.sampleClient with
  | error failure =>
    rw [prepared] at prepares
    cases prepares
  | ok setting =>
    obtain ⟨rounds, made, -, refused⟩ := fetching _ setting derived prepared
    obtain ⟨actions, adds, ids⟩ := made.adds
    have hlength : rounds.length = 3 := by
      rw [adds.log, show Batch.sampleClient.log = [] from rfl, List.nil_append, ids] at opened
      simpa using congrArg List.length opened
    have hlast : 2 < rounds.length := by omega
    obtain ⟨-, failed, asked⟩ := refused 2 _ (.status 503) (List.getElem?_eq_getElem hlast) rfl
    refine ⟨_, asked, failed, ?_⟩
    obtain ⟨actions, -, hnext⟩ := asked
    rw [hnext] at cached
    exact cached

end Refused

end Invocation

end NodeAttestation
