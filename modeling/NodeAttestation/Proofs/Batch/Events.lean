import Mathlib.Data.List.Perm.Subperm
import NodeAttestation.Proofs.Batch.Cap
import NodeAttestation.Proofs.Batch.Deduplication
import NodeAttestation.Proofs.Batch.Log
import NodeAttestation.Proofs.Verification.Ending

/-!
# The events of a batch

What a batch emits while it is fetched is what its outcomes make of it: a report for each that
comes of a failed validation, in the order of the outcomes, and when all have been counted the
identifiers that they carry.
-/

namespace NodeAttestation.Batch

/-- What is emitted with the result of a batch. -/
def closing (job : Assignment) : Result → List Event
  | .ok (fetched, _) => [.nodesReceived (fetched.nodes.filterMap (·.identifier)) job.source]
  | .error _ => []

def closed (job : Assignment) (b : Batch) : List Event := b.result?.elim [] (closing job)

/-- The totals are those of the outcomes that have been counted. -/
structure Collected.Tallies (c : Collected) : Prop where
  saved : c.saved = c.nodes.countP (·.saved)
  identifiers : c.identifiers = c.nodes.filterMap (·.identifier)

/-- All that has become of the attestations that were taken up, apart from those that were lost:
each is with its task or has its ending, and it is told by its place. -/
structure Placed (job : Assignment) (b : Batch) (h : History) (ends : List (Ending job)) :
    Prop where
  submitted : b.submitted = h.taken.length
  heard : ∀ task ∈ b.tasks, task.Heard job
  tasks : ∀ task ∈ b.tasks, h.taken[task.place]? = some task.attestation
  ended : ∀ e ∈ ends, h.taken[e.place]? = some e.task.attestation
  distinct : (b.tasks.map (·.place) ++ ends.map (·.place)).Nodup

/-- The outcomes and the events of a batch are those of the endings so far. -/
structure Mirrored (job : Assignment) (first : Client) (b : Batch) (h : History)
    (ends : List (Ending job)) : Prop extends Placed job b h ends where
  outcomes : surviving h.results = ends.map (·.outcome)
  events : first.Emits (ends.flatMap (·.events) ++ b.closed job) b.client

/-- What is emitted for a batch goes by how the verifications ended and by its result: the failed
validations are reported under the identifier of the batch, each in its turn, and if there is a
result its identifiers come last. -/
structure Mirrors (job : Assignment) (result : Result) (events : List Event)
    (ends : List (Ending job)) : Prop where
  events : events = ends.flatMap (·.events) ++ closing job result
  nodes : ∀ fetched saved, result = .ok (fetched, saved) → fetched.nodes = ends.map (·.outcome)
  counted : ∀ fetched saved, result = .ok (fetched, saved) →
    saved = fetched.savedCount ∧ saved ≤ fetched.nodes.length

section Totals

variable {plan : BatchPlan} {others : Client → Client → Prop} {first b next : Batch}
  {h gains : History}

theorem Collected.Tallies.add {c : Collected} (tallies : c.Tallies) (outcome : Option Outcome) :
    (c.add outcome).Tallies where
  saved := Collected.saved_add tallies.saved outcome
  identifiers := by
    cases outcome with
    | none => exact tallies.identifiers
    | some outcome =>
      dsimp only [Collected.add]
      rw [List.filterMap_append, ← tallies.identifiers]
      cases hnode : outcome.identifier <;> simp [hnode]

theorem Admission.collected_eq {a : Attestation} {taken : List Attestation}
    (admission : Admission plan a b taken next) : next.collected = b.collected := by
  cases admission <;> rfl

theorem Step.tallies (tallies : b.collected.Tallies) (step : Step plan b gains next) :
    next.collected.Tallies := by
  cases step with
  | arrived _ _ _ _ admission | resumed _ _ admission =>
    rw [admission.collected_eq]
    exact tallies
  | released _ _ admission =>
    rw [admission.collected_eq]
    exact tallies.add _
  | counted => exact tallies.add _
  | _ => exact tallies

theorem Run.tallies (run : Run plan others first b h) (start : first.collected.Tallies) :
    b.collected.Tallies := by
  refine run.invariant (I := fun b _ => b.collected.Tallies) start ?_ ?_
  · intro b h gains next _ tallies step
    exact step.tallies tallies
  · intro b h client tallies _
    exact tallies

end Totals

section Unended

variable {plan : BatchPlan} {b next : Batch} {gains : History}

theorem closed_of_result (job : Assignment) (h : b.result? = none) : b.closed job = [] := by
  rw [closed, h]
  rfl

theorem Step.result?_eq_none (step : Step plan b gains next) : b.result? = none := by
  cases step with
  | went unended | finished unended =>
    rwa [isEnded, Option.isSome_eq_false_iff, Option.isNone_iff_eq_none] at unended
  | exhausted phase | ignored phase | arrived phase | held phase | limited phase | broken phase
  | refused phase | released phase | counted phase | persisted phase | resumed phase
  | vacant phase | concluded phase => rw [result?, phase]

end Unended

section Receiving

variable {settings : Settings} {c next : Client}

theorem emits_of_receiveLimit? {entry : PushedLimit}
    (h : c.receiveLimit? settings entry = some next) : c.Emits [] next := by
  rw [Client.receiveLimit?] at h
  split at h
  · cases h
  · split at h
    · exact ⟨_, (Client.adds_of_applyLimit? h).log, rfl⟩
    · cases h
    · cases h
      exact Client.emits_of_log_eq rfl

theorem emits_receiveLimits (settings : Settings) (entries : List PushedLimit) (c : Client) :
    c.Emits [] (c.receiveLimits settings entries).2 := by
  induction entries generalizing c with
  | nil => exact Client.emits_record _ .persisted
  | cons entry entries ih =>
    rw [Client.receiveLimits]
    split
    · rename_i next hnext
      exact (emits_of_receiveLimit? hnext).trans (ih next)
    · exact Client.emits_of_log_eq rfl

end Receiving

section Steps

variable {plan : BatchPlan} {first : Client} {b next : Batch} {h later : History}
  {ends : List (Ending plan.job)}

theorem getElem?_append_of_eq_some {α : Type} {xs : List α} {n : Nat} {x : α} (ys : List α)
    (h : xs[n]? = some x) : (xs ++ ys)[n]? = some x := by
  rw [List.getElem?_append_left (List.getElem?_eq_some_iff.1 h).1]
  exact h

/-- An act that neither takes an attestation up nor lets a task go on. -/
theorem Mirrored.of_same (mirrored : Mirrored plan.job first b h ends)
    (client : b.client.Emits [] next.client) (hclosed : next.closed plan.job = b.closed plan.job)
    (htasks : next.tasks = b.tasks := by rfl) (hsubmitted : next.submitted = b.submitted := by rfl)
    (htaken : later.taken = h.taken := by rfl) (hresults : later.results = h.results := by rfl) :
    Mirrored plan.job first next later ends where
  submitted := by rw [hsubmitted, htaken, mirrored.submitted]
  heard := by
    rw [htasks]
    exact mirrored.heard
  tasks := by
    rw [htasks, htaken]
    exact mirrored.tasks
  ended := by
    rw [htaken]
    exact mirrored.ended
  distinct := by
    rw [htasks]
    exact mirrored.distinct
  outcomes := by
    rw [hresults]
    exact mirrored.outcomes
  events := by
    have emits := mirrored.events.trans client
    rwa [List.append_nil, ← hclosed] at emits

/-- A batch that fails drops its tasks. -/
theorem Mirrored.of_fail (mirrored : Mirrored plan.job first b h ends) {failure : Failure}
    (unended : b.result? = none) (client : b.client.Emits [] next.client)
    (hsubmitted : next.submitted = b.submitted := by rfl)
    (htaken : later.taken = h.taken := by rfl) (hresults : later.results = h.results := by rfl) :
    Mirrored plan.job first (next.fail failure) later ends where
  submitted := by
    rw [htaken]
    exact hsubmitted.trans mirrored.submitted
  heard _ htask := nomatch htask
  tasks _ htask := nomatch htask
  ended := by
    rw [htaken]
    exact mirrored.ended
  distinct := (List.nodup_append.1 mirrored.distinct).2.1
  outcomes := by
    rw [hresults]
    exact mirrored.outcomes
  events := by
    have emits := mirrored.events.trans client
    rwa [closed_of_result _ unended, List.append_nil] at emits

theorem Admission.mirrored {a : Attestation} {taken : List Attestation}
    (admission : Admission plan a b taken next) (mirrored : Mirrored plan.job first b h ends) :
    Mirrored plan.job first next { h with taken := h.taken ++ taken } ends := by
  cases admission with
  | skipped =>
    exact mirrored.of_same (Client.emits_of_log_eq rfl) rfl rfl rfl (List.append_nil _) rfl
  | taken =>
    have below : ∀ place ∈ b.tasks.map (·.place) ++ ends.map (·.place), place < h.taken.length := by
      intro place hplace
      rcases List.mem_append.1 hplace with htask | hend
      · obtain ⟨task, hmem, rfl⟩ := List.mem_map.1 htask
        exact (List.getElem?_eq_some_iff.1 (mirrored.tasks task hmem)).1
      · obtain ⟨e, he, rfl⟩ := List.mem_map.1 hend
        exact (List.getElem?_eq_some_iff.1 (mirrored.ended e he)).1
    refine ⟨⟨?_, ?_, ?_, ?_, ?_⟩, mirrored.outcomes, mirrored.events⟩
    · rw [List.length_append, mirrored.submitted]
      rfl
    · intro task htask
      rcases List.mem_append.1 htask with hold | hnew
      · exact mirrored.heard task hold
      · cases List.mem_singleton.1 hnew
        exact Task.heard_of_submitted rfl
    · intro task htask
      rcases List.mem_append.1 htask with hold | hnew
      · exact getElem?_append_of_eq_some _ (mirrored.tasks task hold)
      · cases List.mem_singleton.1 hnew
        rw [mirrored.submitted]
        exact List.getElem?_concat_length
    · intro e he
      exact getElem?_append_of_eq_some _ (mirrored.ended e he)
    · rw [List.map_append, List.append_assoc]
      refine List.perm_middle.nodup_iff.2 (List.nodup_cons.2 ⟨?_, mirrored.distinct⟩)
      intro hplace
      have hlt := below _ hplace
      rw [mirrored.submitted] at hlt
      exact Nat.lt_irrefl _ hlt

theorem Mirrored.of_going (mirrored : Mirrored plan.job first b h ends) {index timer : Nat}
    {task : Task} {stage : Task.Stage} (found : b.tasks[index]? = some task)
    (transition : task.Transition plan.job timer b.client (.going stage) next.client)
    (hclosed : next.closed plan.job = b.closed plan.job)
    (htasks : next.tasks = b.tasks.set index { task with stage := stage })
    (hsubmitted : next.submitted = b.submitted) : Mirrored plan.job first next h ends := by
  have member := List.mem_of_getElem? found
  have hplaces : (b.tasks.set index { task with stage := stage }).map (·.place) =
      b.tasks.map (·.place) := map_set_of_eq found rfl
  have emits := mirrored.events.trans
    (transition.emits_nil fun _ hfinished => nomatch hfinished)
  rw [List.append_nil, ← hclosed] at emits
  refine ⟨⟨?_, ?_, ?_, mirrored.ended, ?_⟩, mirrored.outcomes, emits⟩
  · rw [hsubmitted, mirrored.submitted]
  · rw [htasks]
    intro other hother
    rcases List.mem_or_eq_of_mem_set hother with hold | rfl
    · exact mirrored.heard other hold
    · exact transition.heard (mirrored.heard task member)
  · rw [htasks]
    intro other hother
    rcases List.mem_or_eq_of_mem_set hother with hold | rfl
    · exact mirrored.tasks other hold
    · exact mirrored.tasks task member
  · rw [htasks, hplaces]
    exact mirrored.distinct

/-- A task that finishes has its ending, unless it is lost. -/
theorem Mirrored.of_finish (mirrored : Mirrored plan.job first b h ends) {index timer : Nat}
    {task : Task} {outcome : Option Outcome} (found : b.tasks[index]? = some task)
    (transition : task.Transition plan.job timer b.client (.finished outcome) next.client)
    (unended : b.result? = none) (hresult : next.result? = none)
    (htasks : next.tasks = b.tasks.eraseIdx index) (hsubmitted : next.submitted = b.submitted) :
    ∃ later, Mirrored plan.job first next { h with results := h.results ++ [outcome] } later := by
  have member := List.mem_of_getElem? found
  have fewer : ∀ other ∈ next.tasks, other ∈ b.tasks := by
    rw [htasks]
    exact fun other hother => List.mem_of_mem_eraseIdx hother
  have emitted := mirrored.events
  rw [closed_of_result _ unended, List.append_nil] at emitted
  cases outcome with
  | none =>
    have emits := emitted.trans (transition.emits_nil fun _ hfinished => nomatch hfinished)
    refine ⟨ends, ⟨⟨?_, ?_, ?_, mirrored.ended, ?_⟩, ?_, ?_⟩⟩
    · rw [hsubmitted, mirrored.submitted]
    · exact fun other hother => mirrored.heard other (fewer other hother)
    · exact fun other hother => mirrored.tasks other (fewer other hother)
    · rw [htasks]
      exact mirrored.distinct.sublist (((List.eraseIdx_sublist ..).map _).append_right _)
    · rw [surviving_append, surviving_singleton, Option.toList_none, List.append_nil]
      exact mirrored.outcomes
    · rwa [closed_of_result _ hresult]
  | some o =>
    obtain ⟨report?, hends, told⟩ := transition.ends (mirrored.heard task member)
    have emits := emitted.trans told
    refine ⟨ends ++ [⟨task, o, report?, hends⟩], ⟨⟨?_, ?_, ?_, ?_, ?_⟩, ?_, ?_⟩⟩
    · rw [hsubmitted, mirrored.submitted]
    · exact fun other hother => mirrored.heard other (fewer other hother)
    · exact fun other hother => mirrored.tasks other (fewer other hother)
    · intro e he
      rcases List.mem_append.1 he with hold | hnew
      · exact mirrored.ended e hold
      · cases List.mem_singleton.1 hnew
        exact mirrored.tasks task member
    · -- The place moves from the tasks to the endings.
      obtain ⟨hindex, rfl⟩ := List.getElem?_eq_some_iff.1 found
      have hperm := (perm_getElem_cons_eraseIdx hindex).map (·.place)
      have hdistinct := (hperm.append_right _).nodup_iff.1 mirrored.distinct
      rw [htasks, List.map_append, ← List.append_assoc]
      exact List.perm_append_comm.nodup_iff.1 hdistinct
    · rw [surviving_append, surviving_singleton, mirrored.outcomes, List.map_append]
      rfl
    · rw [closed_of_result _ hresult, List.append_nil, List.flatMap_append, List.flatMap_singleton]
      exact emits

theorem Mirrored.of_conclude (mirrored : Mirrored plan.job first b h ends)
    (tallies : b.collected.Tallies) (unended : b.result? = none) :
    Mirrored plan.job first
      { b with
        client := b.client.emit (.nodesReceived b.collected.identifiers plan.job.source)
        phase := .ended (.ok (⟨plan.job.request, b.collected.nodes⟩, b.collected.saved)) } h
      ends where
  submitted := mirrored.submitted
  heard := mirrored.heard
  tasks := mirrored.tasks
  ended := mirrored.ended
  distinct := mirrored.distinct
  outcomes := mirrored.outcomes
  events := by
    have emitted := mirrored.events
    rw [closed_of_result _ unended, List.append_nil] at emitted
    rw [tallies.identifiers]
    exact emitted.trans (Client.emits_record _ _)

theorem Step.mirrored {gains : History} (tallies : b.collected.Tallies)
    (mirrored : Mirrored plan.job first b h ends) (step : Step plan b gains next) :
    ∃ later, Mirrored plan.job first next (h.append gains) later := by
  have unended := step.result?_eq_none
  have hclosed := closed_of_result plan.job unended
  have idle : b.client.Emits [] b.client := Client.emits_of_log_eq rfl
  cases step with
  | exhausted | held | persisted =>
    rw [History.append_empty]
    exact ⟨ends, mirrored.of_same idle hclosed.symm⟩
  | ignored | counted =>
    rw [History.append_empty]
    exact ⟨ends, mirrored.of_same idle rfl⟩
  | arrived _ _ _ _ admission =>
    rw [History.append_taken]
    exact ⟨ends, admission.mirrored (mirrored.of_same idle rfl)⟩
  | released _ _ admission | resumed _ _ admission =>
    rw [History.append_taken]
    exact ⟨ends, admission.mirrored (mirrored.of_same idle hclosed.symm)⟩
  | @limited _ _ entries client _ _ _ _ applied reading =>
    have emits := emits_receiveLimits plan.settings entries b.client
    rw [applied] at emits
    rw [History.append_pushed]
    refine ⟨ends, mirrored.of_same emits ?_⟩
    rcases reading with rfl | rfl <;> exact hclosed.symm
  | @broken _ _ entries client _ _ _ crashed =>
    have emits := emits_receiveLimits plan.settings entries b.client
    rw [crashed] at emits
    rw [History.append_pushed]
    exact ⟨ends, mirrored.of_fail unended emits⟩
  | refused | vacant =>
    rw [History.append_empty]
    exact ⟨ends, mirrored.of_fail unended idle⟩
  | went _ found step =>
    rw [History.append_empty]
    exact ⟨ends, mirrored.of_going found (Task.transition_of_step step) rfl rfl rfl⟩
  | finished _ found step =>
    rw [History.append_results]
    exact mirrored.of_finish found (Task.transition_of_step step) unended unended rfl rfl
  | concluded =>
    rw [History.append_empty]
    exact ⟨ends, mirrored.of_conclude tallies unended⟩

end Steps

section Runs

variable {plan : BatchPlan} {others : Client → Client → Prop} {items : List (Frame.Item Response)}
  {c : Client} {b : Batch} {h : History} {ends : List (Ending plan.job)}

theorem mirrored_begin (plan : BatchPlan) (items : List (Frame.Item Response)) (c : Client) :
    Mirrored plan.job c (plan.begin items c) .empty [] where
  submitted := rfl
  heard _ htask := nomatch htask
  tasks _ htask := nomatch htask
  ended _ hend := nomatch hend
  distinct := .nil
  outcomes := rfl
  events := Client.emits_of_log_eq rfl

theorem Run.mirrored (run : Run plan others (plan.begin items c) b h)
    (quiet : ∀ c next, others c next → next.log = c.log) :
    ∃ ends, Mirrored plan.job c b h ends := by
  refine run.invariant (I := fun b h => ∃ ends, Mirrored plan.job c b h ends) ?_ ?_ ?_
  · exact ⟨[], mirrored_begin plan items c⟩
  · intro b h gains next run ⟨ends, mirrored⟩ step
    exact step.mirrored (run.tallies ⟨rfl, rfl⟩) mirrored
  · intro b h client ⟨ends, mirrored⟩ change
    exact ⟨ends, mirrored.of_same (Client.emits_of_log_eq (quiet _ _ change)) rfl⟩

theorem Run.nodes_eq_surviving (run : Run plan others (plan.begin items c) b h)
    {fetched : FetchedBatch} {saved : Nat} (result : b.result? = some (.ok (fetched, saved))) :
    fetched.nodes = surviving h.results := by
  obtain ⟨-, hidle, -, heq⟩ := run.fetched_eq rfl result
  rcases run.underway with underway | failed
  · obtain ⟨counted, hresults, hnodes⟩ := underway.ledger.counted
    have hfinished : b.finished = [] :=
      List.eq_nil_of_length_eq_zero (by rw [inFlight] at hidle; omega)
    rw [Prod.mk.injEq] at heq
    rw [heq.1, hresults, hfinished, List.append_nil]
    exact hnodes
  · obtain ⟨failure, hfailed, -⟩ := failed.cause
    rw [result?_eq_some.1 result] at hfailed
    cases hfailed

theorem Run.savedCount_eq (run : Run plan others (plan.begin items c) b h)
    {fetched : FetchedBatch} {saved : Nat} (result : b.result? = some (.ok (fetched, saved))) :
    saved = fetched.savedCount ∧ saved ≤ fetched.nodes.length := by
  obtain ⟨-, -, -, heq⟩ := run.fetched_eq rfl result
  have tallies := run.tallies ⟨rfl, rfl⟩
  rw [Prod.mk.injEq] at heq
  obtain ⟨rfl, rfl⟩ := heq
  rw [FetchedBatch.savedCount, tallies.saved, List.countP_eq_length_filter]
  exact ⟨rfl, List.length_filter_le ..⟩

/-- If no task is lost, every attestation that was taken up has its ending. -/
theorem Run.places_perm (run : Run plan others (plan.begin items c) b h)
    (mirrored : Mirrored plan.job c b h ends) {fetched : FetchedBatch} {saved : Nat}
    (result : b.result? = some (.ok (fetched, saved))) (kept : h.panics = 0) :
    (ends.map (·.place)).Perm (List.range h.taken.length) := by
  have hlength : h.taken.length = ends.length := by
    obtain ⟨-, -, hperm⟩ := run.labels_perm result kept
    have hnodes := hperm.length_eq
    rw [run.nodes_eq_surviving result, mirrored.outcomes] at hnodes
    simpa using hnodes.symm
  have distinct := (List.nodup_append.1 mirrored.distinct).2.1
  have within : ends.map (·.place) ⊆ List.range h.taken.length := by
    intro place hplace
    obtain ⟨e, he, rfl⟩ := List.mem_map.1 hplace
    exact List.mem_range.2 (List.getElem?_eq_some_iff.1 (mirrored.ended e he)).1
  apply (List.subperm_of_subset distinct within).perm_of_length_le
  exact Nat.le_of_eq (by rw [List.length_range, List.length_map, hlength])

theorem Mirrored.mirrors (mirrored : Mirrored plan.job c b h ends) {result : Result}
    (run : Run plan others (plan.begin items c) b h) (ended : b.result? = some result) :
    Mirrors plan.job result (ends.flatMap (·.events) ++ b.closed plan.job) ends where
  events := by
    rw [closed, ended]
    rfl
  nodes fetched saved hresult := by
    subst hresult
    rw [run.nodes_eq_surviving ended]
    exact mirrored.outcomes
  counted fetched saved hresult := by
    subst hresult
    exact run.savedCount_eq ended

end Runs

section Fetch

theorem mirrors_of_error (job : Assignment) (failure : Failure) :
    Mirrors job (.error failure) [] [] where
  events := rfl
  nodes _ _ hresult := nomatch hresult
  counted _ _ hresult := nomatch hresult

theorem mirrors_of_fetches {plan : BatchPlan} {request : Request} {c next : Client}
    {result : Result} (fetches : plan.Fetches request c result next) :
    ∃ events ends, c.Emits events next ∧ Mirrors plan.job result events ends := by
  have connecting := c.emits_record (.connecting plan.job.request)
  have requested := connecting.trans (Client.emits_record _ (.requested request))
  have interrupted := connecting.trans (Client.emits_record _ (.interrupted request))
  cases fetches with
  | unconnected => exact ⟨[], [], connecting, mirrors_of_error _ _⟩
  | interrupted => exact ⟨[], [], interrupted, mirrors_of_error _ _⟩
  | declined => exact ⟨[], [], requested, mirrors_of_error _ _⟩
  | processed run ended =>
    obtain ⟨ends, mirrored⟩ := run.mirrored (by rintro _ _ ⟨nanos, rfl⟩; rfl)
    exact ⟨_, ends, requested.trans mirrored.events, mirrored.mirrors run ended⟩

end Fetch

end NodeAttestation.Batch
