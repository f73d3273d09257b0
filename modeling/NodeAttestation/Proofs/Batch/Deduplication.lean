import NodeAttestation.Proofs.Batch.Run
import NodeAttestation.Proofs.Cache.Tracking
import NodeAttestation.Proofs.RateLimit.Receiving
import NodeAttestation.Proofs.Verification.Effect

/-! # The nodes saved for a batch are those that the cache tracks for it, and each is saved once. -/

namespace NodeAttestation

namespace Batch

/-- What has come of the attestations so far, whether it has been counted or not. -/
def outcomes (b : Batch) : List Outcome := b.collected.nodes ++ surviving b.finished

def savedAs (outcomes : List Outcome) : List (Option String) :=
  (outcomes.filter (·.saved)).map (·.identifier)

def tracked (plan : BatchPlan) (b : Batch) : SortedSet String :=
  b.client.cache.tracked plan.job.workload plan.job.batch

/-- As long as a batch has not failed, its outcomes and the cache agree. -/
structure Tallied (plan : BatchPlan) (b : Batch) : Prop where
  saved : (savedAs b.outcomes).Perm ((b.tracked plan).keys.map some)
  identified : ∀ outcome ∈ b.outcomes, ∀ node, outcome.identifier = some node →
    (b.tracked plan).contains node = true
  counted : b.collected.saved = b.collected.nodes.countP (·.saved)

section Outcomes

theorem savedAs_append (outcomes more : List Outcome) :
    savedAs (outcomes ++ more) = savedAs outcomes ++ savedAs more := by
  rw [savedAs, List.filter_append, List.map_append, savedAs, savedAs]

theorem savedAs_singleton (outcome : Outcome) :
    savedAs [outcome] = if outcome.saved then [outcome.identifier] else [] := by
  rw [savedAs, List.filter_cons, List.filter_nil]
  split <;> rfl

theorem count_savedAs (outcomes : List Outcome) (identifier : Option String) :
    (savedAs outcomes).count identifier =
      outcomes.countP (fun outcome => outcome.saved && outcome.identifier == identifier) := by
  rw [savedAs, List.count, List.countP_map, List.countP_filter]
  congr 1
  funext outcome
  exact Bool.and_comm ..

theorem Collected.saved_add {c : Collected} (h : c.saved = c.nodes.countP (·.saved))
    (outcome : Option Outcome) :
    (c.add outcome).saved = (c.add outcome).nodes.countP (·.saved) := by
  cases outcome with
  | none => exact h
  | some outcome =>
    dsimp only [add]
    rw [List.countP_append, List.countP_singleton, h]
    split <;> rfl

theorem outcomes_collect {b next : Batch} {outcome : Option Outcome}
    {rest : List (Option Outcome)} (queue : b.finished = outcome :: rest)
    (hcollected : next.collected = b.collected.add outcome) (hrest : next.finished = rest) :
    next.outcomes = b.outcomes := by
  rw [outcomes, outcomes, hcollected, hrest, queue, surviving_cons]
  cases outcome with
  | none => rfl
  | some outcome =>
    rw [Collected.add, List.append_assoc]
    rfl

theorem outcomes_finish {b next : Batch} {outcome : Option Outcome}
    (hcollected : next.collected = b.collected)
    (hfinished : next.finished = b.finished ++ [outcome]) :
    next.outcomes = b.outcomes ++ outcome.toList := by
  rw [outcomes, outcomes, hcollected, hfinished, surviving_append, surviving_singleton,
    List.append_assoc]

end Outcomes

section Steps

variable {plan : BatchPlan} {b next : Batch}

theorem Tallied.of_same (tallied : Tallied plan b)
    (hcounted : next.collected.saved = next.collected.nodes.countP (·.saved))
    (houtcomes : next.outcomes = b.outcomes := by rfl)
    (htracked : next.tracked plan = b.tracked plan := by rfl) :
    Tallied plan next where
  saved := by
    rw [houtcomes, htracked]
    exact tallied.saved
  identified := by
    rw [houtcomes, htracked]
    exact tallied.identified
  counted := hcounted

theorem Admission.tallied {a : Attestation} {taken : List Attestation}
    (admission : Admission plan a b taken next) (tallied : Tallied plan b) :
    Tallied plan next := by
  cases admission with
  | skipped => exact tallied
  | taken => exact tallied.of_same tallied.counted

theorem Tallied.of_collect (tallied : Tallied plan b) {outcome : Option Outcome}
    {rest : List (Option Outcome)} (queue : b.finished = outcome :: rest)
    (hcollected : next.collected = b.collected.add outcome := by rfl)
    (hrest : next.finished = rest := by rfl)
    (htracked : next.tracked plan = b.tracked plan := by rfl) : Tallied plan next := by
  refine tallied.of_same ?_ (outcomes_collect queue hcollected hrest) htracked
  rw [hcollected]
  exact Collected.saved_add tallied.counted outcome

theorem Tallied.of_effect (tallied : Tallied plan b) {task : Task} {outcome : Option Outcome}
    (effect : task.Effect plan.job b.client.cache (.finished outcome) next.client.cache)
    (hcollected : next.collected = b.collected)
    (hfinished : next.finished = b.finished ++ [outcome]) : Tallied plan next := by
  have houtcomes := outcomes_finish hcollected hfinished
  have hcounted : next.collected.saved = next.collected.nodes.countP (·.saved) := by
    rw [hcollected]
    exact tallied.counted
  rcases effect.finished_cases with ⟨hcache, hunsaved⟩ | ⟨o, node, rfl, hsaved, hnode, gains, -⟩
  · -- Nothing is saved; a node that the outcome speaks of is tracked already.
    have htracked : next.tracked plan = b.tracked plan := by rw [tracked, tracked, hcache]
    cases outcome with
    | none =>
      rw [Option.toList_none, List.append_nil] at houtcomes
      exact tallied.of_same hcounted houtcomes htracked
    | some o =>
      obtain ⟨hsaved, hheld⟩ := hunsaved o rfl
      rw [Option.toList_some] at houtcomes
      refine ⟨?_, ?_, hcounted⟩
      · rw [houtcomes, htracked, savedAs_append, savedAs_singleton, hsaved,
          if_neg Bool.false_ne_true, List.append_nil]
        exact tallied.saved
      · rw [houtcomes, htracked]
        intro other hother node hnode
        rcases List.mem_append.1 hother with hold | hnew
        · exact tallied.identified other hold node hnode
        · cases List.mem_singleton.1 hnew
          exact hheld node hnode
  · -- The node is new, and the outcome is the one that saves it.
    have htracked : next.tracked plan = (b.tracked plan).insert node () := gains.tracked_eq
    have hnew : (b.tracked plan).contains node = false := gains.new
    rw [Option.toList_some] at houtcomes
    refine ⟨?_, ?_, hcounted⟩
    · rw [houtcomes, htracked, savedAs_append, savedAs_singleton, hsaved, if_pos rfl, hnode]
      calc
        (savedAs b.outcomes ++ [some node]).Perm (some node :: savedAs b.outcomes) :=
          List.perm_append_comm
        _ |>.Perm (some node :: (b.tracked plan).keys.map some) := tallied.saved.cons _
        _ |>.Perm (((b.tracked plan).insert node ()).keys.map some) :=
          ((SortedMap.keys_insert_perm () hnew).map some).symm
    · rw [houtcomes, htracked]
      intro other hother identifier hidentifier
      rw [SortedMap.contains_insert]
      rcases List.mem_append.1 hother with hold | hlast
      · exact .inr (tallied.identified other hold identifier hidentifier)
      · cases List.mem_singleton.1 hlast
        rw [hnode, Option.some.injEq] at hidentifier
        exact .inl hidentifier.symm

/-- What has been counted as saved is, once every task has been counted, all that is tracked. -/
theorem Tallied.saved_eq_size (tallied : Tallied plan b) (idle : b.inFlight = 0) :
    b.collected.saved = (b.tracked plan).size := by
  have houtcomes : b.outcomes = b.collected.nodes := by
    have hfinished : b.finished = [] :=
      List.eq_nil_of_length_eq_zero (by rw [inFlight] at idle; omega)
    rw [outcomes, hfinished]
    exact List.append_nil _
  calc
    b.collected.saved = b.collected.nodes.countP (·.saved) := tallied.counted
    _ = (savedAs b.outcomes).length := by
      rw [houtcomes, savedAs, List.length_map, List.countP_eq_length_filter]
    _ = ((b.tracked plan).keys.map some).length := tallied.saved.length_eq
    _ = (b.tracked plan).size := by rw [List.length_map, SortedMap.length_keys]

theorem Step.tallied {gains : History} (sound : ∀ task ∈ b.tasks, task.stage.IsSound)
    (tallied : Tallied plan b) (step : Step plan b gains next) :
    next.hasFailed = true ∨ Tallied plan next := by
  cases step with
  | broken | refused | vacant => exact .inl rfl
  | exhausted | ignored | held | persisted | concluded =>
    exact .inr (tallied.of_same tallied.counted)
  | arrived _ _ _ _ admission | resumed _ _ admission =>
    exact .inr (admission.tallied (tallied.of_same tallied.counted))
  | released _ queue admission =>
    exact .inr (admission.tallied (tallied.of_collect queue))
  | counted _ queue => exact .inr (tallied.of_collect queue)
  | @limited _ _ entries client _ _ _ _ applied _ =>
    obtain ⟨limiter, log, hclient⟩ := Client.receiveLimits_frame plan.settings entries b.client
    rw [applied] at hclient
    subst hclient
    exact .inr (tallied.of_same tallied.counted)
  | @went index timer task stage client _ found step =>
    have effect := task.effect_of_step plan.job b.client
      (sound task (List.mem_of_getElem? found)) step
    refine .inr (tallied.of_same tallied.counted rfl ?_)
    rw [tracked, tracked, effect.going_cases.1]
  | @finished index timer task outcome client _ found step =>
    have effect := task.effect_of_step plan.job b.client
      (sound task (List.mem_of_getElem? found)) step
    exact .inr (tallied.of_effect effect rfl rfl)

end Steps

section Runs

variable {plan : BatchPlan} {others : Client → Client → Prop}
  {messages : List (Frame.Item Response)} {c : Client} {b : Batch} {h : History}

theorem tallied_begin : Tallied plan (plan.begin messages c) where
  saved := by
    have hempty : (plan.begin messages c).tracked plan = .empty := Cache.tracked_deleteBatch ..
    rw [hempty]
    exact .nil
  identified _ houtcome := nomatch houtcome
  counted := rfl

/-- Whoever else changes the client may do so in any way that leaves the batch alone. -/
theorem Run.tallied (run : Run plan others (plan.begin messages c) b h)
    (apart : ∀ c next, others c next →
      next.cache.batch? plan.job.workload plan.job.batch =
        c.cache.batch? plan.job.workload plan.job.batch) :
    b.hasFailed = true ∨ Tallied plan b := by
  refine run.invariant (I := fun b _ => b.hasFailed = true ∨ Tallied plan b) ?_ ?_ ?_
  · exact .inr tallied_begin
  · intro b h gains next run ih step
    rcases ih with hfailed | tallied
    · rw [step.hasFailed_eq_false] at hfailed
      cases hfailed
    · exact step.tallied (run.sound rfl) tallied
  · intro b h client ih change
    refine ih.imp id fun tallied => ?_
    have htracked : ({ b with client := client } : Batch).tracked plan = b.tracked plan :=
      Cache.tracked_congr _ _ (apart _ _ change)
    exact tallied.of_same tallied.counted rfl htracked

/-- The nodes that the cache tracks for a batch that has been fetched are those that its outcomes
name. Each has been saved once, and that is what the batch has counted. -/
theorem tracked_iff_saved_once {fetched : FetchedBatch} {saved : Nat}
    (apart : ∀ c next, others c next →
      next.cache.batch? plan.job.workload plan.job.batch =
        c.cache.batch? plan.job.workload plan.job.batch)
    (run : Run plan others (plan.begin messages c) b h)
    (result : b.result? = some (.ok (fetched, saved))) :
    (∀ node, (b.client.cache.tracked plan.job.workload plan.job.batch).contains node = true ↔
        ∃ outcome ∈ fetched.nodes, outcome.identifier = some node) ∧
      (∀ node, (b.client.cache.tracked plan.job.workload plan.job.batch).contains node = true →
        fetched.nodes.countP (fun outcome => outcome.saved && outcome.identifier == some node) =
          1) ∧
      saved = b.client.cache.trackedCount plan.job.workload plan.job.batch := by
  obtain ⟨_, idle, _, heq⟩ := run.fetched_eq rfl result
  rw [Prod.mk.injEq] at heq
  obtain ⟨rfl, rfl⟩ := heq
  have hopen : b.hasFailed = false := by rw [hasFailed, result?_eq_some.1 result]
  have tallied : Tallied plan b := by
    rcases run.tallied apart with hfailed | tallied
    · rw [hopen] at hfailed
      cases hfailed
    · exact tallied
  have houtcomes : b.outcomes = b.collected.nodes := by
    have hfinished : b.finished = [] :=
      List.eq_nil_of_length_eq_zero (by rw [inFlight] at idle; omega)
    rw [outcomes, hfinished]
    exact List.append_nil _
  have hsaved := tallied.saved
  rw [houtcomes] at hsaved
  -- The tracked nodes are distinct, so a permutation of them holds each once.
  have honce : ∀ node, (b.tracked plan).contains node = true →
      b.collected.nodes.countP (fun outcome => outcome.saved && outcome.identifier == some node) =
        1 := by
    intro node hnode
    have hmem : some node ∈ (b.tracked plan).keys.map some :=
      List.mem_map_of_mem ((SortedMap.mem_keys_iff _).2 hnode)
    have hnodup : ((b.tracked plan).keys.map some).Nodup :=
      List.Pairwise.map some (fun _ _ hne heq => hne (Option.some.inj heq)) (SortedMap.nodup_keys _)
    calc
      b.collected.nodes.countP (fun outcome => outcome.saved && outcome.identifier == some node)
      _ = (savedAs b.collected.nodes).count (some node) := (count_savedAs ..).symm
      _ = ((b.tracked plan).keys.map some).count (some node) := hsaved.count_eq _
      _ = 1 := by rw [hnodup.count, if_pos hmem]
  refine ⟨fun node => ⟨fun hnode => ?_, ?_⟩, honce, ?_⟩
  · have hpos := Nat.lt_of_lt_of_eq Nat.one_pos (honce node hnode).symm
    obtain ⟨outcome, houtcome, hboth⟩ := List.countP_pos_iff.1 hpos
    rw [Bool.and_eq_true, beq_iff_eq] at hboth
    exact ⟨outcome, houtcome, hboth.2⟩
  · rintro ⟨outcome, houtcome, hnode⟩
    rw [← houtcomes] at houtcome
    exact tallied.identified outcome houtcome node hnode
  · calc
      b.collected.saved = b.collected.nodes.countP (·.saved) := tallied.counted
      _ = (savedAs b.collected.nodes).length := by
        rw [savedAs, List.length_map, List.countP_eq_length_filter]
      _ = ((b.tracked plan).keys.map some).length := hsaved.length_eq
      _ = (b.tracked plan).size := by rw [List.length_map, SortedMap.length_keys]

def twins : List (Frame.Item Response) := [sampleAttestation "n", sampleAttestation "n"]

/-- The first of the tasks saves the node, the second finds it tracked when it comes to save it. -/
def twinOutcomes : List Outcome :=
  [sampleOutcome "n", ⟨"n", "1.0", "release", .alreadyInBatch, false, some "uid-n"⟩]

/-- Another batch of the workload comes to track the node. -/
def elsewhere (c : Client) : Client :=
  { c with cache := c.cache.addNode sampleJob.workload 1 sampleJob.fetchTime "uid-n" }

theorem tracked_iff_saved_once_of_twins :
    ∃ b h, Run (samplePlan 2) (fun c next => next = elsewhere c)
        ((samplePlan 2).begin twins sampleClient) b h ∧
      b.result? = some (.ok (⟨⟨0⟩, twinOutcomes⟩, 1)) ∧
      (∀ node, (b.client.cache.tracked sampleJob.workload sampleJob.batch).contains node = true ↔
        ∃ outcome ∈ twinOutcomes, outcome.identifier = some node) ∧
      (∀ node, (b.client.cache.tracked sampleJob.workload sampleJob.batch).contains node = true →
        twinOutcomes.countP (fun outcome => outcome.saved && outcome.identifier == some node) = 1) ∧
      1 = b.client.cache.trackedCount sampleJob.workload sampleJob.batch := by
  have apart (c next : Client) (h : next = elsewhere c) :
      next.cache.batch? sampleJob.workload sampleJob.batch =
        c.cache.batch? sampleJob.workload sampleJob.batch := by
    rw [h]
    exact Cache.batch?_setBatch_of_ne _ _ _ _ (by decide)
  have other : Run (samplePlan 2) (fun c next => next = elsewhere c)
      ((samplePlan 2).begin twins sampleClient) _ .empty := Run.start.meanwhile rfl
  obtain ⟨b, h, run, result⟩ := other.play
    [.receive, .receive, .receive, .step 0, .step 1, .step 0, .step 1, .step 0, .step 1, .step 0,
      .step 1, .step 0, .step 1, .step 0, .step 0, .collect, .collect, .proceed]
    (·.1.result?) (some (.ok (⟨⟨0⟩, twinOutcomes⟩, 1))) (by rfl)
  exact ⟨b, h, run, result, tracked_iff_saved_once apart run result⟩

end Runs

end Batch

end NodeAttestation
