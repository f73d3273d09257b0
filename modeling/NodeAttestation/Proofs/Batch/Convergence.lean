import NodeAttestation.Proofs.Batch.Breakdown
import NodeAttestation.Proofs.Batch.Cap
import NodeAttestation.Proofs.Batch.Deduplication
import NodeAttestation.Proofs.Verification.Answers

/-!
# What a batch comes to track does not depend on the order of its verifications

The outcomes of single attestations do: of two that speak of one node, either can be the one that
is saved. But a verifier that answers by the attestation alone leads to the same nodes in the end.
They can be told from the cache that the batch starts from and from the attestations that it takes
up.
-/

namespace NodeAttestation.Batch

/-- What holds of a batch and of all its tasks as long as the verifier gives the answers. -/
structure Faithful (answers : Answers) (plan : BatchPlan) (now : Instant) (first : Cache)
    (b : Batch) (h : History) : Prop where
  clock : b.client.now? = some now
  unharmed : h.panics = 0
  bounds : answers.Bounds plan.job now first h.taken b.client.cache
  tasks : ∀ task ∈ b.tasks, answers.Consistent now first h.taken task

/-- Each attestation that has been taken up is still with a task, or its node is tracked if it is
one to be kept. -/
def Covered (answers : Answers) (plan : BatchPlan) (now : Instant) (first : Cache) (b : Batch)
    (h : History) : Prop :=
  ∀ a ∈ h.taken, a ∈ b.tasks.map (·.attestation) ∨
    ∀ node, answers.kept? now first a = some node → (b.tracked plan).contains node = true

section Steps

variable {answers : Answers} {plan : BatchPlan} {now : Instant} {first : Cache} {b next : Batch}
  {h later gains : History}

theorem Faithful.of_same (faithful : Faithful answers plan now first b h)
    (htasks : next.tasks ⊆ b.tasks) (hcache : next.client.cache = b.client.cache := by rfl)
    (hclock : next.client.clock = b.client.clock := by rfl)
    (htaken : later.taken = h.taken := by rfl) (hresults : later.results = h.results := by rfl) :
    Faithful answers plan now first next later where
  clock := by
    rw [Client.now?, hclock]
    exact faithful.clock
  unharmed := by
    rw [History.panics, hresults]
    exact faithful.unharmed
  bounds := by
    rw [hcache, htaken]
    exact faithful.bounds
  tasks := by
    rw [htaken]
    exact fun task htask => faithful.tasks task (htasks htask)

theorem Covered.of_same (covered : Covered answers plan now first b h)
    (htasks : next.tasks.map (·.attestation) = b.tasks.map (·.attestation) := by rfl)
    (htracked : next.tracked plan = b.tracked plan := by rfl)
    (htaken : later.taken = h.taken := by rfl) : Covered answers plan now first next later := by
  unfold Covered
  rw [htasks, htracked, htaken]
  exact covered

theorem Faithful.tracked_eq (faithful : Faithful answers plan now first b h)
    (covered : Covered answers plan now first b h) (done : b.tasks = []) :
    b.tracked plan = answers.kept now first h.taken := by
  refine SortedMap.set_ext fun node => ?_
  rw [answers.contains_kept_iff]
  constructor
  · exact faithful.bounds.tracked node
  · rintro ⟨a, ha, hkept⟩
    have hcovered := covered a ha
    rw [done] at hcovered
    exact hcovered.resolve_left List.not_mem_nil node hkept

theorem Admission.faithful {a : Attestation} {taken : List Attestation}
    (admission : Admission plan a b taken next) (faithful : Faithful answers plan now first b h) :
    Faithful answers plan now first next { h with taken := h.taken ++ taken } := by
  cases admission with
  | skipped =>
    rw [List.append_nil]
    exact faithful
  | taken =>
    refine ⟨faithful.clock, faithful.unharmed, ?_, ?_⟩
    · exact faithful.bounds.mono (List.subset_append_left _ _)
    · intro task htask
      rcases List.mem_append.1 htask with hold | hnew
      · exact (faithful.tasks task hold).mono (List.subset_append_left _ _)
      · cases List.mem_singleton.1 hnew
        exact ⟨List.mem_append_right _ (List.mem_singleton_self a), trivial⟩

theorem Admission.covered {a : Attestation} {taken : List Attestation}
    (admission : Admission plan a b taken next) (covered : Covered answers plan now first b h) :
    Covered answers plan now first next { h with taken := h.taken ++ taken } := by
  cases admission with
  | skipped =>
    rw [List.append_nil]
    exact covered
  | taken =>
    intro other hother
    rcases List.mem_append.1 hother with hold | hnew
    · refine (covered other hold).imp (fun hmem => ?_) id
      rw [List.map_append]
      exact List.mem_append_left _ hmem
    · refine .inl ?_
      rw [List.map_append]
      exact List.mem_append_right _ hnew

theorem Step.faithful (given : answers.GivenBy plan.job now)
    (faithful : Faithful answers plan now first b h) (step : Step plan b gains next) :
    Faithful answers plan now first next (h.append gains) := by
  cases step with
  | exhausted | ignored | held | counted | persisted | concluded =>
    rw [History.append_empty]
    exact faithful.of_same (List.Subset.refl _)
  | refused | vacant =>
    rw [History.append_empty]
    exact faithful.of_same (List.nil_subset _)
  | limited _ _ _ applied =>
    obtain ⟨limiter, log, rfl⟩ := Client.eq_of_receiveLimits applied
    rw [History.append_pushed]
    exact faithful.of_same (List.Subset.refl _)
  | broken _ _ _ crashed =>
    obtain ⟨limiter, log, rfl⟩ := Client.eq_of_receiveLimits crashed
    rw [History.append_pushed]
    exact faithful.of_same (List.nil_subset _)
  | arrived _ _ _ _ admission | released _ _ admission | resumed _ _ admission =>
    rw [History.append_taken]
    exact admission.faithful (faithful.of_same (List.Subset.refl _))
  | @went index timer task stage client _ found step =>
    have hconsistent := faithful.tasks task (List.mem_of_getElem? found)
    obtain ⟨hstage, hcache, hclock⟩ := hconsistent.going given faithful.bounds faithful.clock
      (Task.transition_of_step step)
    rw [History.append_empty]
    refine ⟨hclock, faithful.unharmed, hcache ▸ faithful.bounds, fun other hother => ?_⟩
    rcases List.mem_or_eq_of_mem_set hother with hold | rfl
    · exact faithful.tasks other hold
    · exact hstage
  | @finished index timer task outcome client _ found step =>
    have hconsistent := faithful.tasks task (List.mem_of_getElem? found)
    obtain ⟨hsome, hfinished⟩ := hconsistent.finished given faithful.bounds faithful.clock
      (Task.transition_of_step step)
    rw [History.append_results]
    refine ⟨hfinished.clock, ?_, hfinished.bounds, fun other hother => ?_⟩
    · rw [History.panics, List.count_append, List.count_eq_zero_of_not_mem (l := [outcome])]
      · exact faithful.unharmed
      · exact fun hnone => hsome (List.mem_singleton.1 hnone).symm
    · exact faithful.tasks other (List.mem_of_mem_eraseIdx hother)

theorem Step.covered (given : answers.GivenBy plan.job now)
    (faithful : Faithful answers plan now first b h) (covered : Covered answers plan now first b h)
    (step : Step plan b gains next) :
    next.hasFailed = true ∨ Covered answers plan now first next (h.append gains) := by
  cases step with
  | broken | refused | vacant => exact .inl rfl
  | exhausted | ignored | held | counted | persisted | concluded =>
    rw [History.append_empty]
    exact .inr covered.of_same
  | limited _ _ _ applied =>
    obtain ⟨limiter, log, rfl⟩ := Client.eq_of_receiveLimits applied
    rw [History.append_pushed]
    exact .inr covered.of_same
  | arrived _ _ _ _ admission | released _ _ admission | resumed _ _ admission =>
    rw [History.append_taken]
    exact .inr (admission.covered covered.of_same)
  | @went index timer task stage client _ found step =>
    have hconsistent := faithful.tasks task (List.mem_of_getElem? found)
    obtain ⟨-, hcache, -⟩ := hconsistent.going given faithful.bounds faithful.clock
      (Task.transition_of_step step)
    rw [History.append_empty]
    refine .inr (covered.of_same (map_set_of_eq found rfl) ?_)
    rw [tracked, tracked, hcache]
  | @finished index timer task outcome client _ found step =>
    have hconsistent := faithful.tasks task (List.mem_of_getElem? found)
    obtain ⟨-, hfinished⟩ := hconsistent.finished given faithful.bounds faithful.clock
      (Task.transition_of_step step)
    rw [History.append_results]
    refine .inr fun a ha => ?_
    -- Of the attestations with a task, only that of the finished one is no longer there.
    obtain ⟨hindex, rfl⟩ := List.getElem?_eq_some_iff.1 found
    rcases covered a ha with hmem | hkept
    · have hperm := (perm_getElem_cons_eraseIdx hindex).map (·.attestation)
      rcases List.mem_cons.1 (hperm.subset hmem) with rfl | hother
      · exact .inr hfinished.kept
      · exact .inl hother
    · exact .inr fun node hnode => hfinished.grown node (hkept node hnode)

end Steps

section Readings

variable {plan : BatchPlan} {b next : Batch} {gains : History}

/-- The limits of a response, each with what was read off the clock when it was received. -/
def readings (clock : Option Instant) (items : List (Frame.Item Response)) :
    List (Option Instant × PushedLimit) :=
  items.flatMap fun item => (entriesOf item).map (clock, ·)

theorem Step.readings_eq (step : Step plan b gains next) :
    readings b.client.now? b.messages =
      gains.pushed ++ readings b.client.now? next.messages := by
  have hread {item : Frame.Item Response} {items : List (Frame.Item Response)}
      {entries : List PushedLimit} (messages : b.messages = item :: items)
      (hentries : entriesOf item = entries) :
      readings b.client.now? b.messages =
        entries.map (b.client.now?, ·) ++ readings b.client.now? items := by
    rw [messages, readings, List.flatMap_cons, hentries, readings]
  cases step with
  | exhausted | went | finished | counted | persisted | vacant | concluded => rfl
  | ignored _ messages decoded | held _ messages decoded | refused _ messages decoded =>
    exact hread messages (by rw [entriesOf, decoded])
  | limited _ messages decoded | broken _ messages decoded =>
    exact hread messages (by rw [entriesOf, decoded])
  | arrived _ messages decoded _ admission =>
    rw [admission.messages]
    exact hread messages (by rw [entriesOf, decoded])
  | released _ _ admission | resumed _ _ admission =>
    rw [admission.messages]
    rfl

/-- A batch that has ended has read all messages, unless a limit has brought it down. -/
def ReadOut (b : Batch) : Prop :=
  match b.phase with
  | .ended result => result = .error .crashed ∨ b.messages = []
  | _ => True

theorem readOut_of_unended (h : b.isEnded = false) : b.ReadOut := by
  rw [isEnded, result?] at h
  unfold ReadOut
  cases phase : b.phase with
  | ended result =>
    rw [phase] at h
    cases h
  | _ => exact trivial

theorem Step.readOut (whole : ∀ item ∈ b.messages, ∃ message, Error.ofItem item = .ok message)
    (settled : Settled plan b) (step : Step plan b gains next) : next.ReadOut := by
  cases step with
  | broken => exact .inl rfl
  | @refused item items e _ messages decoded =>
    obtain ⟨message, hmessage⟩ := whole item (messages ▸ List.mem_cons_self)
    cases decoded.symm.trans hmessage
  | vacant phase | concluded phase =>
    unfold Settled at settled
    rw [phase] at settled
    exact .inr settled
  | exhausted | held | persisted => exact trivial
  | limited _ _ _ _ phase' =>
    rcases phase' with rfl | rfl <;> exact trivial
  | ignored phase | counted phase =>
    unfold ReadOut
    rw [phase]
    exact trivial
  | arrived phase _ _ _ admission =>
    unfold ReadOut
    rw [admission.phase, phase]
    exact trivial
  | released _ _ admission | resumed _ _ admission =>
    unfold ReadOut
    rw [admission.phase]
    exact trivial
  | went unended | finished unended => exact readOut_of_unended unended

end Readings

section Runs

variable {answers : Answers} {plan : BatchPlan} {others : Client → Client → Prop} {now : Instant}
  {items : List (Frame.Item Response)} {c : Client} {b : Batch} {h : History}

theorem Run.readOut (whole : ∀ item ∈ items, ∃ message, Error.ofItem item = .ok message)
    (run : Run plan others (plan.begin items c) b h) : b.ReadOut := by
  refine run.invariant (I := fun b _ => b.ReadOut) trivial ?_ ?_
  · intro b h gains next run _ step
    rcases run.underway with underway | failed
    · obtain ⟨decided, ordered⟩ := underway.ordered
      refine step.readOut (fun item hitem => ?_) (run.settled rfl)
      exact whole item (ordered.suffix.subset hitem)
    · obtain ⟨failure, phase, _⟩ := failed.cause
      have hopen := step.hasFailed_eq_false
      rw [hasFailed, phase] at hopen
      cases hopen
  · intro b h client readOut _
    exact readOut

variable (given : answers.GivenBy plan.job now) (clock : c.now? = some now)
  (still : ∀ c next, others c next → next.cache = c.cache ∧ next.clock = c.clock)

include given clock still

theorem Run.faithful (run : Run plan others (plan.begin items c) b h) :
    Faithful answers plan now (c.cache.deleteBatch plan.job.workload plan.job.batch) b h := by
  refine run.invariant (I := Faithful answers plan now _) ?_ ?_ ?_
  · refine ⟨clock, rfl, ⟨fun _ live => live, fun _ live => .inl live, ?_⟩, fun _ h => nomatch h⟩
    intro node held
    have hempty : (plan.begin items c).tracked plan = .empty := Cache.tracked_deleteBatch ..
    change ((plan.begin items c).tracked plan).contains node = true at held
    rw [hempty] at held
    cases held
  · intro b h gains next _ faithful step
    exact step.faithful given faithful
  · intro b h client faithful change
    obtain ⟨hcache, hclock⟩ := still _ _ change
    exact faithful.of_same (List.Subset.refl _) hcache hclock

theorem Run.covered (run : Run plan others (plan.begin items c) b h) :
    b.hasFailed = true ∨
      Covered answers plan now (c.cache.deleteBatch plan.job.workload plan.job.batch) b h := by
  refine run.invariant (I := fun b h => b.hasFailed = true ∨ Covered answers plan now _ b h)
    ?_ ?_ ?_
  · exact .inr fun a ha => nomatch ha
  · intro b h gains next run ih step
    rcases ih with hfailed | covered
    · cases hfailed.symm.trans step.hasFailed_eq_false
    · exact step.covered given (run.faithful given clock still) covered
  · intro b h client ih change
    refine ih.imp id fun covered => covered.of_same rfl ?_
    rw [tracked, tracked, (still _ _ change).1]

theorem Run.readings_eq (run : Run plan others (plan.begin items c) b h) :
    readings (some now) items = h.pushed ++ readings (some now) b.messages := by
  refine run.invariant
    (I := fun b h => readings (some now) items = h.pushed ++ readings (some now) b.messages)
    rfl ?_ ?_
  · intro b h gains next run ih step
    have hread := step.readings_eq
    rw [(run.faithful given clock still).clock] at hread
    rw [ih, hread, History.append, List.append_assoc]
  · intro b h client ih _
    exact ih

/-- Whether a limit brings the batch down can be told from the response. -/
theorem Run.result_eq_crashed_iff {result : Result}
    (whole : ∀ item ∈ items, ∃ message, Error.ofItem item = .ok message)
    (run : Run plan others (plan.begin items c) b h) (hresult : b.result? = some result) :
    result = .error .crashed ↔
      ∃ reading ∈ readings (some now) items, IsFatal plan.settings reading := by
  have phase := result?_eq_some.1 hresult
  have hcrashed := run.phase_eq_crashed_iff rfl
  have hread := run.readings_eq given clock still
  rw [phase, Phase.ended.injEq] at hcrashed
  rw [hread]
  constructor
  · intro crashed
    obtain ⟨reading, hmem, hfatal⟩ := hcrashed.1 crashed
    exact ⟨reading, List.mem_append_left _ hmem, hfatal⟩
  · rintro ⟨reading, hmem, hfatal⟩
    have readOut := run.readOut whole
    unfold ReadOut at readOut
    rw [phase] at readOut
    rcases readOut with crashed | messages
    · exact crashed
    · rw [messages, readings, List.flatMap_nil, List.append_nil] at hmem
      exact hcrashed.2 ⟨reading, hmem, hfatal⟩

theorem Run.tracked_eq_of_ok {fetched : FetchedBatch × Nat}
    (run : Run plan others (plan.begin items c) b h) (hresult : b.result? = some (.ok fetched)) :
    b.tracked plan = answers.kept now (c.cache.deleteBatch plan.job.workload plan.job.batch)
      ((attestations items).take plan.most) := by
  have faithful := run.faithful given clock still
  obtain ⟨htaken, -, -⟩ := run.labels_perm hresult faithful.unharmed
  obtain ⟨-, idle, -, -⟩ := run.fetched_eq rfl hresult
  have hopen : b.hasFailed = false := by rw [hasFailed, result?_eq_some.1 hresult]
  have covered := (run.covered given clock still).resolve_left (Bool.eq_false_iff.1 hopen)
  have htasks : b.tasks = [] := List.eq_nil_of_length_eq_zero (by rw [inFlight] at idle; omega)
  rw [← htaken]
  exact faithful.tracked_eq covered htasks

/-- Without attestations nothing is tracked. -/
theorem Run.tracked_eq_of_vacant (run : Run plan others (plan.begin items c) b h)
    (vacant : attestations items = []) : b.tracked plan = .empty := by
  have faithful := run.faithful given clock still
  have htaken := run.bounds.2.2.2
  rw [vacant, List.sublist_nil] at htaken
  refine SortedMap.set_ext fun node => ⟨fun held => ?_, fun held => nomatch held⟩
  obtain ⟨a, ha, -⟩ := faithful.bounds.tracked node held
  rw [htaken] at ha
  cases ha

/-- A batch that is read to its end tracks the nodes to be kept and counts them, whatever the order
in which its tasks go on. -/
theorem tracked_eq_kept {result : Result}
    (whole : ∀ item ∈ items, ∃ message, Error.ofItem item = .ok message)
    (run : Run plan others (plan.begin items c) b h) (hresult : b.result? = some result) :
    (result = .error .crashed ↔
      ∃ reading ∈ readings (some now) items, IsFatal plan.settings reading) ∧
    (result ≠ .error .crashed →
      b.client.cache.tracked plan.job.workload plan.job.batch =
        answers.kept now (c.cache.deleteBatch plan.job.workload plan.job.batch)
          ((attestations items).take plan.most) ∧
      (attestations items = [] → result = .error (.error .emptyResponse)) ∧
      (attestations items ≠ [] → ∃ fetched, result = .ok (fetched,
        (answers.kept now (c.cache.deleteBatch plan.job.workload plan.job.batch)
          ((attestations items).take plan.most)).size))) := by
  refine ⟨run.result_eq_crashed_iff given clock still whole hresult, fun intact => ?_⟩
  cases result with
  | ok fetched =>
    obtain ⟨fetched, saved⟩ := fetched
    obtain ⟨-, hsome, -⟩ := run.labels_perm hresult (run.faithful given clock still).unharmed
    obtain ⟨-, idle, -, heq⟩ := run.fetched_eq rfl hresult
    have hopen : b.hasFailed = false := by rw [hasFailed, result?_eq_some.1 hresult]
    have apart (c next : Client) (change : others c next) :
        next.cache.batch? plan.job.workload plan.job.batch =
          c.cache.batch? plan.job.workload plan.job.batch := by
      rw [(still c next change).1]
    have tallied := (run.tallied apart).resolve_left (Bool.eq_false_iff.1 hopen)
    have htracked := run.tracked_eq_of_ok given clock still hresult
    refine ⟨htracked, fun hnone => absurd hnone hsome, fun _ => ⟨fetched, ?_⟩⟩
    rw [← htracked, ← tallied.saved_eq_size idle, (Prod.mk.inj heq).2]
  | error failure =>
    obtain ⟨rfl, hnone⟩ := run.vacant whole hresult fun crashed => intact (crashed ▸ rfl)
    refine ⟨?_, fun _ => rfl, fun hsome => absurd hnone hsome⟩
    rw [hnone, List.take_nil]
    exact run.tracked_eq_of_vacant given clock still hnone

end Runs

section Disagreement

/-- Evidence of the first version of the system is accepted, other evidence is not. -/
def sampleAnswers : Answers where
  identity a := .ok (some ("uid-" ++ a.node))
  validation a :=
    if a.osVersion = "1.0" then
      .ok ⟨a, some ("uid-" ++ a.node), Bytes.ofText a.node, sampleExpiry, none⟩
    else .error (.rejected "measurement mismatch")
  agree := by
    intro a v node hvalid hnode
    split at hvalid <;> cases hvalid
    exact congrArg Except.ok hnode

def disagreeingPlan : BatchPlan :=
  { samplePlan 2 with job := { sampleJob with verifier := sampleAnswers.verifier } }

/-- Two attestations of one node, of which the first is not accepted. -/
def disagreeing : List (Frame.Item Response) :=
  [.message (.attestation ⟨"n", [], "0.9", "release", none, none⟩), sampleAttestation "n"]

/-- The outcome of the first if it is validated before the second is saved. -/
def validatedFirst : Outcome :=
  ⟨"n", "0.9", "release", .invalid (.rejected "measurement mismatch"), false, none⟩

/-- The outcome of the first if the second is saved before it is looked up. -/
def lookedUpLater : Outcome := ⟨"n", "0.9", "release", .alreadyInBatch, false, some "uid-n"⟩

/-- The outcomes depend on the order of the verifications, the tracked nodes do not. -/
theorem tracked_eq_kept_of_disagreement :
    ∃ b h b' h',
      Run disagreeingPlan (fun c next => next = c.persistLimits)
        (disagreeingPlan.begin disagreeing sampleClient) b h ∧
      Run disagreeingPlan (fun c next => next = c.persistLimits)
        (disagreeingPlan.begin disagreeing sampleClient) b' h' ∧
      b.result? = some (.ok (⟨⟨0⟩, [validatedFirst, sampleOutcome "n"]⟩, 1)) ∧
      b'.result? = some (.ok (⟨⟨0⟩, [sampleOutcome "n", lookedUpLater]⟩, 1)) ∧
      b.client.cache.tracked sampleJob.workload sampleJob.batch =
        sampleAnswers.kept .epoch (sampleClient.cache.deleteBatch sampleJob.workload 0)
          (attestations disagreeing) ∧
      b'.client.cache.tracked sampleJob.workload sampleJob.batch =
        sampleAnswers.kept .epoch (sampleClient.cache.deleteBatch sampleJob.workload 0)
          (attestations disagreeing) ∧
      (sampleAnswers.kept .epoch (sampleClient.cache.deleteBatch sampleJob.workload 0)
        (attestations disagreeing)).keys = ["uid-n"] := by
  have given : sampleAnswers.GivenBy disagreeingPlan.job .epoch :=
    sampleAnswers.givenBy_verifier sampleJob .epoch
  have clock : sampleClient.now? = some .epoch := by decide
  have still (c next : Client) (change : next = c.persistLimits) :
      next.cache = c.cache ∧ next.clock = c.clock := by
    rw [change]
    exact ⟨rfl, rfl⟩
  have whole : ∀ item ∈ disagreeing, ∃ message, Error.ofItem item = .ok message := by
    intro item hitem
    simp only [disagreeing, List.mem_cons, List.not_mem_nil, or_false] at hitem
    rcases hitem with rfl | rfl <;> exact ⟨_, rfl⟩
  have other : Run disagreeingPlan (fun c next => next = c.persistLimits)
      (disagreeingPlan.begin disagreeing sampleClient) _ .empty := Run.start.meanwhile rfl
  obtain ⟨b, h, run, result⟩ := other.play
    [.receive, .receive, .receive, .step 0, .step 0, .step 0, .step 0, .step 0, .step 0, .step 0,
      .step 0, .step 0, .step 0, .collect, .collect, .proceed]
    (·.1.result?) (some (.ok (⟨⟨0⟩, [validatedFirst, sampleOutcome "n"]⟩, 1))) (by rfl)
  obtain ⟨b', h', run', result'⟩ := other.play
    [.receive, .receive, .receive, .step 1, .step 1, .step 1, .step 1, .step 1, .step 1, .step 0,
      .step 0, .step 0, .collect, .collect, .proceed]
    (·.1.result?) (some (.ok (⟨⟨0⟩, [sampleOutcome "n", lookedUpLater]⟩, 1))) (by rfl)
  have tracked := (tracked_eq_kept given clock still whole run result).2 fun h => nomatch h
  have tracked' := (tracked_eq_kept given clock still whole run' result').2 fun h => nomatch h
  exact ⟨b, h, b', h', run, run', result, result', tracked.1, tracked'.1, by decide⟩

end Disagreement

end NodeAttestation.Batch
