import NodeAttestation.Proofs.Batch.Run
import NodeAttestation.Proofs.Cache.Operations
import NodeAttestation.Proofs.RateLimit.Receiving
import NodeAttestation.Proofs.Verification.Transition

/-!
# Batches that share a client

Any number of batches are fetched side by side, and their acts come in any order. Between the
look-up of a node and the tracking of it, another batch can begin anew and drop the record that has
been looked up. The look-up is then torn, and the node is tracked without a record. Nothing else
makes a batch track a node without one.
-/

namespace NodeAttestation

/-- The node that a task has looked up and is going to track. -/
def Task.known? (task : Task) : Option String :=
  match task.stage with
  | .known node => some node
  | _ => none

theorem Task.known?_eq_some_iff {task : Task} {node : String} :
    task.known? = some node ↔ task.stage = .known node := by
  rw [known?]
  cases task.stage <;> simp

namespace Batch

/-- The nodes that have been looked up and are going to be tracked. -/
def awaited (b : Batch) : List String := b.tasks.filterMap Task.known?

section Acts

variable {plan : BatchPlan} {b next : Batch} {gains : History} {node : String}

theorem mem_awaited_iff : node ∈ b.awaited ↔ ∃ task ∈ b.tasks, task.stage = .known node := by
  simp only [awaited, List.mem_filterMap, Task.known?_eq_some_iff]

theorem Admission.awaited_eq {a : Attestation} {taken : List Attestation}
    (admission : Admission plan a b taken next) : next.awaited = b.awaited := by
  cases admission with
  | skipped => rfl
  | taken => exact List.filterMap_append.trans (List.append_nil _)

theorem client_settle (index : Nat) (task : Task) (b : Batch) (progress : Task.Progress) :
    (b.settle index task progress).client = b.client := by
  cases progress <;> rfl

theorem Settled.isEnded_eq_false (settled : b.Settled plan) (busy : b.tasks ≠ []) :
    b.isEnded = false := by
  have hflight : b.inFlight ≠ 0 := by
    have := List.length_pos_iff.2 busy
    rw [inFlight]
    omega
  unfold Settled at settled
  rw [isEnded, result?]
  cases hphase : b.phase with
  | ended result =>
    rw [hphase] at settled
    cases result with
    | ok fetched => exact absurd settled.2.1 hflight
    | error failure => exact absurd settled hflight
  | _ => rfl

/-- An act writes to the cache what a step of one of the tasks does, or nothing. -/
theorem Step.cache_cases (step : Step plan b gains next) :
    next.client.cache = b.client.cache ∨
      ∃ task ∈ b.tasks, next.client.cache = task.stage.write plan.job b.client.cache := by
  cases step with
  | arrived _ _ _ _ admission | released _ _ admission | resumed _ _ admission =>
    exact .inl (congrArg Client.cache admission.client_eq)
  | limited _ _ _ applied =>
    obtain ⟨limiter, log, rfl⟩ := Client.eq_of_receiveLimits applied
    exact .inl rfl
  | broken _ _ _ crashed =>
    obtain ⟨limiter, log, rfl⟩ := Client.eq_of_receiveLimits crashed
    exact .inl rfl
  | went _ found step | finished _ found step =>
    exact .inr ⟨_, List.mem_of_getElem? found, (Task.transition_of_step step).cache_eq⟩
  | _ => exact .inl rfl

/-- A node comes to be awaited while it has a record. -/
theorem Step.awaited_cases (step : Step plan b gains next) (h : node ∈ next.awaited) :
    node ∈ b.awaited ∨ b.client.cache.records.contains node = true := by
  cases step with
  | arrived _ _ _ _ admission | released _ _ admission | resumed _ _ admission =>
    rw [admission.awaited_eq] at h
    exact .inl h
  | broken | refused | vacant => cases h
  | @went index timer task stage client _ found step =>
    obtain ⟨other, hother, hstage⟩ := mem_awaited_iff.1 h
    rcases List.mem_or_eq_of_mem_set hother with hold | rfl
    · exact .inl (mem_awaited_iff.2 ⟨other, hold, hstage⟩)
    · cases hstage
      obtain ⟨-, now, -, live⟩ := (Task.transition_of_step step).known_cases
      exact .inr (Cache.contains_records_of_isLive _ live)
  | finished =>
    obtain ⟨other, hother, hstage⟩ := mem_awaited_iff.1 h
    exact .inl (mem_awaited_iff.2 ⟨other, List.mem_of_mem_eraseIdx hother, hstage⟩)
  | _ => exact .inl h

end Acts

end Batch

/-- A batch on its way and the plan by which it is fetched. -/
structure Fetch where
  plan : BatchPlan
  batch : Batch

/-- The batch as it goes on with a client that others have changed meanwhile. -/
def Fetch.over (f : Fetch) (c : Client) : Batch := { f.batch with client := c }

/-- A client and all that is fetched over it. The batches act on that client, not on their own. -/
structure Sharing where
  client : Client
  fetches : List Fetch

namespace Sharing

inductive Move where
  | begin (plan : BatchPlan) (messages : List (Frame.Item Response))
  | act (index : Nat) (act : Batch.Act)

def move? (s : Sharing) : Move → Option Sharing
  | .begin plan messages =>
    let batch := plan.begin messages s.client
    some ⟨batch.client, s.fetches ++ [⟨plan, batch⟩]⟩
  | .act index act =>
    s.fetches[index]?.bind fun f =>
      ((f.over s.client).act? f.plan act).map fun next =>
        ⟨next.client, s.fetches.set index { f with batch := next }⟩

def awaited (s : Sharing) : List String := s.fetches.flatMap (·.batch.awaited)

/-- The look-ups that a move tears: the record was there and is dropped. -/
def tornBy (s : Sharing) : Move → List String
  | .begin plan _ => s.awaited.filter fun node =>
      s.client.cache.records.contains node &&
        !(s.client.cache.deleteBatch plan.job.workload plan.job.batch).records.contains node
  | .act _ _ => []

/-- What any number of batches can come to, and the look-ups that have been torn by then. What else
is done with the client leaves the cache alone. -/
inductive Run (first : Client) : Sharing → List String → Prop
  | start : Run first ⟨first, []⟩ []
  | move {s next : Sharing} {torn : List String} {m : Move} (run : Run first s torn)
      (possible : s.move? m = some next) : Run first next (torn ++ s.tornBy m)
  | meanwhile {s : Sharing} {torn : List String} {client : Client} (run : Run first s torn)
      (same : client.cache = s.client.cache) : Run first { s with client := client } torn

/-- Every phantom and every node that is going to become one come of a look-up that was torn. -/
structure Accounted (s : Sharing) (torn : List String) : Prop where
  settled : ∀ f ∈ s.fetches, f.batch.Settled f.plan
  awaited : ∀ node ∈ s.awaited, s.client.cache.records.contains node = false → node ∈ torn
  phantoms : ∀ node, s.client.cache.isPhantom node = true → node ∈ torn

section Writing

variable {node : String}

theorem contains_records_write {job : Assignment} {c : Cache} (stage : Task.Stage)
    (h : c.records.contains node = true) : (stage.write job c).records.contains node = true := by
  cases stage with
  | known other =>
    rw [Task.Stage.write, Cache.records_track]
    exact h
  | approved v other => exact Cache.contains_records_save _ _ _ _ h
  | _ => exact h

/-- Only a node that is tracked without a record becomes a phantom. -/
theorem isPhantom_write {job : Assignment} {c : Cache} {stage : Task.Stage}
    (h : (stage.write job c).isPhantom node = true) :
    c.isPhantom node = true ∨ stage = .known node ∧ c.records.contains node = false := by
  cases stage with
  | known other =>
    rcases (Cache.isPhantom_track_iff ..).1 h with hold | ⟨rfl, hnone⟩
    · exact .inl hold
    · exact .inr ⟨rfl, hnone⟩
  | approved v other => exact .inl (Cache.isPhantom_of_save _ _ _ _ h)
  | _ => exact .inl h

end Writing

section Operations

theorem exists_operations_write (job : Assignment) (c : Cache) (stage : Task.Stage) :
    ∃ operations : List Cache.Operation, stage.write job c = operations.foldl Cache.perform c := by
  cases stage with
  | known node => exact ⟨[.track job.workload node job.batch job.fetchTime], rfl⟩
  | approved v node => exact ⟨[.save v job.workload job.batch job.fetchTime], rfl⟩
  | _ => exact ⟨[], rfl⟩

theorem exists_operations_move {s next : Sharing} {m : Move} (possible : s.move? m = some next) :
    ∃ operations : List Cache.Operation,
      next.client.cache = operations.foldl Cache.perform s.client.cache := by
  cases m with
  | begin plan messages =>
    cases possible
    exact ⟨[.delete plan.job.workload plan.job.batch], rfl⟩
  | act index act =>
    obtain ⟨f, -, possible⟩ := Option.bind_eq_some_iff.1 possible
    obtain ⟨b, hact, rfl⟩ := Option.map_eq_some_iff.1 possible
    rcases (Batch.act?_step hact).cache_cases with hsame | ⟨task, -, hwrite⟩
    · exact ⟨[], hsame⟩
    · obtain ⟨operations, hoperations⟩ :=
        exists_operations_write f.plan.job s.client.cache task.stage
      exact ⟨operations, hwrite.trans hoperations⟩

/-- Whatever any number of batches do to a cache, they do by operations on it, one at a time. -/
theorem Run.exists_operations {first : Client} {s : Sharing} {torn : List String}
    (run : Run first s torn) :
    ∃ operations : List Cache.Operation,
      s.client.cache = operations.foldl Cache.perform first.cache := by
  induction run with
  | start => exact ⟨[], rfl⟩
  | move _ possible ih =>
    obtain ⟨earlier, hearlier⟩ := ih
    obtain ⟨operations, hoperations⟩ := exists_operations_move possible
    exact ⟨earlier ++ operations, by rw [hoperations, hearlier, List.foldl_append]⟩
  | meanwhile _ same ih =>
    obtain ⟨earlier, hearlier⟩ := ih
    exact ⟨earlier, same.trans hearlier⟩

end Operations

section Moves

variable {s next : Sharing} {torn : List String} {node : String}

theorem mem_awaited_iff : node ∈ s.awaited ↔ ∃ f ∈ s.fetches, node ∈ f.batch.awaited :=
  List.mem_flatMap

theorem mem_tornBy_begin {plan : BatchPlan} {messages : List (Frame.Item Response)} :
    node ∈ s.tornBy (.begin plan messages) ↔
      node ∈ s.awaited ∧ s.client.cache.records.contains node = true ∧
        (plan.begin messages s.client).client.cache.records.contains node = false := by
  rw [tornBy, List.mem_filter, Bool.and_eq_true, Bool.not_eq_true']
  exact Iff.rfl

theorem Accounted.begin (accounted : Accounted s torn) (plan : BatchPlan)
    (messages : List (Frame.Item Response)) :
    Accounted ⟨(plan.begin messages s.client).client,
      s.fetches ++ [⟨plan, plan.begin messages s.client⟩]⟩
      (torn ++ s.tornBy (.begin plan messages)) where
  settled f hf := by
    rcases List.mem_append.1 hf with hold | hnew
    · exact accounted.settled f hold
    · cases List.mem_singleton.1 hnew
      exact trivial
  awaited node hnode hnone := by
    obtain ⟨f, hf, hawaited⟩ := mem_awaited_iff.1 hnode
    have hbefore : node ∈ s.awaited := by
      rcases List.mem_append.1 hf with hold | hnew
      · exact mem_awaited_iff.2 ⟨f, hold, hawaited⟩
      · cases List.mem_singleton.1 hnew
        cases hawaited
    cases hrecord : s.client.cache.records.contains node with
    | false => exact List.mem_append_left _ (accounted.awaited node hbefore hrecord)
    | true => exact List.mem_append_right _ (mem_tornBy_begin.2 ⟨hbefore, hrecord, hnone⟩)
  phantoms node hnode :=
    List.mem_append_left _ (accounted.phantoms node (Cache.isPhantom_of_deleteBatch _ _ _ hnode))

theorem Accounted.act (accounted : Accounted s torn) {index : Nat} {f : Fetch} {b : Batch}
    {gains : Batch.History} (found : s.fetches[index]? = some f)
    (step : Batch.Step f.plan (f.over s.client) gains b) :
    Accounted ⟨b.client, s.fetches.set index { f with batch := b }⟩ torn := by
  have hmem := List.mem_of_getElem? found
  have hawaited : ∀ task ∈ f.batch.tasks, ∀ node, task.stage = .known node → node ∈ s.awaited :=
    fun task htask node hstage =>
      mem_awaited_iff.2 ⟨f, hmem, Batch.mem_awaited_iff.2 ⟨task, htask, hstage⟩⟩
  -- No act drops a record.
  have hkept : ∀ node, b.client.cache.records.contains node = false →
      s.client.cache.records.contains node = false := by
    intro node hnone
    rw [Bool.eq_false_iff] at hnone ⊢
    refine fun hsome => hnone ?_
    rcases step.cache_cases with hsame | ⟨task, -, hwrite⟩
    · rw [hsame]
      exact hsome
    · rw [hwrite]
      exact contains_records_write _ hsome
  refine ⟨fun g hg => ?_, fun node hnode hnone => ?_, fun node hnode => ?_⟩
  · rcases List.mem_or_eq_of_mem_set hg with hold | rfl
    · exact accounted.settled g hold
    · have hbefore : (f.over s.client).Settled f.plan := accounted.settled f hmem
      exact step.settled hbefore
  · obtain ⟨g, hg, hg'⟩ := mem_awaited_iff.1 hnode
    rcases List.mem_or_eq_of_mem_set hg with hold | rfl
    · exact accounted.awaited node (mem_awaited_iff.2 ⟨g, hold, hg'⟩) (hkept node hnone)
    · rcases step.awaited_cases hg' with hold | hsome
      · exact accounted.awaited node (mem_awaited_iff.2 ⟨f, hmem, hold⟩) (hkept node hnone)
      · exact absurd ((hkept node hnone).symm.trans hsome) Bool.false_ne_true
  · rcases step.cache_cases with hsame | ⟨task, htask, hwrite⟩
    · rw [hsame] at hnode
      exact accounted.phantoms node hnode
    · rw [hwrite] at hnode
      rcases isPhantom_write hnode with hold | ⟨hstage, hnone⟩
      · exact accounted.phantoms node hold
      · exact accounted.awaited node (hawaited task htask node hstage) hnone

theorem Accounted.move {m : Move} (accounted : Accounted s torn)
    (possible : s.move? m = some next) : Accounted next (torn ++ s.tornBy m) := by
  cases m with
  | begin plan messages =>
    cases possible
    exact accounted.begin plan messages
  | act index act =>
    obtain ⟨f, found, possible⟩ := Option.bind_eq_some_iff.1 possible
    obtain ⟨b, hact, rfl⟩ := Option.map_eq_some_iff.1 possible
    rw [tornBy, List.append_nil]
    exact accounted.act found (Batch.act?_step hact)

theorem Run.accounted {first : Client} (clean : ∀ node, first.cache.isPhantom node = false)
    (run : Run first s torn) : Accounted s torn := by
  induction run with
  | start =>
    refine ⟨fun f hf => (List.not_mem_nil hf).elim, fun node hnode => ?_, fun node hnode => ?_⟩
    · exact (List.not_mem_nil hnode).elim
    · exact absurd ((clean node).symm.trans hnode) Bool.false_ne_true
  | move _ possible ih => exact ih.move possible
  | @meanwhile s torn client _ same ih =>
    refine ⟨ih.settled, fun node hnode hnone => ?_, fun node hnode => ?_⟩
    · rw [same] at hnone
      exact ih.awaited node hnode hnone
    · rw [same] at hnode
      exact ih.phantoms node hnode

/-- Where a look-up has been torn, one step makes a phantom. -/
theorem Accounted.exists_phantom (accounted : Accounted s torn) (hnode : node ∈ s.awaited)
    (hnone : s.client.cache.records.contains node = false) :
    ∃ index place last, s.move? (.act index (.step place)) = some last ∧
      last.client.cache.isPhantom node = true := by
  obtain ⟨f, hf, hawaited⟩ := mem_awaited_iff.1 hnode
  obtain ⟨task, htask, hstage⟩ := Batch.mem_awaited_iff.1 hawaited
  obtain ⟨index, hindex⟩ := List.getElem?_of_mem hf
  obtain ⟨place, hplace⟩ := List.getElem?_of_mem htask
  have hopen : (f.over s.client).isEnded = false :=
    (accounted.settled f hf).isEnded_eq_false (List.ne_nil_of_mem htask)
  have hact : (f.over s.client).act? f.plan (.step place) =
      some ((f.over s.client).stepTask f.plan place task) := by
    have hfound : (f.over s.client).tasks[place]? = some task := hplace
    rw [Batch.act?, Batch.step?, hopen, hfound]
    rfl
  have hmove : s.move? (.act index (.step place)) = some
      ⟨((f.over s.client).stepTask f.plan place task).client, s.fetches.set index
        { f with batch := (f.over s.client).stepTask f.plan place task }⟩ := by
    rw [move?, hindex, Option.bind_some, hact]
    rfl
  refine ⟨index, place, _, hmove, ?_⟩
  have hcache : ((f.over s.client).stepTask f.plan place task).client.cache =
      task.stage.write f.plan.job s.client.cache := by
    rw [Batch.stepTask, Batch.client_settle]
    exact (Task.step_transition ..).cache_eq
  rw [hcache, hstage]
  exact (Cache.isPhantom_track_iff ..).2 (.inr ⟨rfl, hnone⟩)

end Moves

/-- If the cache has no phantoms to begin with, every phantom has been looked up and lost its record
before it was tracked. Whenever a batch that begins drops a record between a look-up and the
tracking, one step is enough to make the node a phantom. -/
theorem mem_torn_of_isPhantom {first : Client} {s : Sharing} {torn : List String}
    (clean : ∀ node, first.cache.isPhantom node = false) (run : Run first s torn) :
    (∀ node, s.client.cache.isPhantom node = true → node ∈ torn) ∧
      ∀ plan messages, ∀ node ∈ s.tornBy (.begin plan messages),
        ∃ after, s.move? (.begin plan messages) = some after ∧
          ∃ index place last, after.move? (.act index (.step place)) = some last ∧
            last.client.cache.isPhantom node = true := by
  have accounted := run.accounted clean
  refine ⟨accounted.phantoms, fun plan messages node hnode => ⟨_, rfl, ?_⟩⟩
  obtain ⟨hawaited, -, hnone⟩ := mem_tornBy_begin.1 hnode
  obtain ⟨f, hf, hmem⟩ := mem_awaited_iff.1 hawaited
  exact (accounted.begin plan messages).exists_phantom
    (mem_awaited_iff.2 ⟨f, List.mem_append_left _ hf, hmem⟩) hnone

section Restart

theorem Run.play {first : Client} {s last : Sharing} {torn : List String} (run : Run first s torn)
    (moves : List Move) (played : moves.foldlM move? s = some last) :
    ∃ later, Run first last later := by
  induction moves generalizing s torn with
  | nil =>
    cases played
    exact ⟨torn, run⟩
  | cons m moves ih =>
    obtain ⟨next, possible, played⟩ := Option.bind_eq_some_iff.1 played
    exact ih (run.move possible) played

def planOf (batch : Nat) : BatchPlan :=
  { Batch.samplePlan 1 with job := { Batch.sampleJob with batch := batch } }

/-- A node is saved for one batch and looked up for another. Then the first batch begins anew, and
the node is tracked for the second. -/
def restart : List Move :=
  [.begin (planOf 0) [Batch.sampleAttestation "n"], .act 0 .receive, .act 0 (.step 0),
    .act 0 (.step 0), .act 0 (.step 0), .act 0 (.step 0), .act 0 (.step 0), .act 0 (.step 0),
    .begin (planOf 1) [Batch.sampleAttestation "n"], .act 1 .receive, .act 1 (.step 0),
    .act 1 (.step 0), .begin (planOf 0) [Batch.sampleAttestation "n"], .act 1 (.step 0)]

theorem exists_run_restart :
    ∃ s torn, Run Batch.sampleClient s torn ∧ s.client.cache.isPhantom "uid-n" = true := by
  have played : (restart.foldlM move? ⟨Batch.sampleClient, []⟩).map
      (·.client.cache.isPhantom "uid-n") = some true := by rfl
  obtain ⟨s, played, phantom⟩ := Option.map_eq_some_iff.1 played
  obtain ⟨torn, run⟩ := Run.start.play restart played
  exact ⟨s, torn, run, phantom⟩

theorem mem_torn_of_restart :
    (∀ node, Batch.sampleClient.cache.isPhantom node = false) ∧
      ∃ s torn, Run Batch.sampleClient s torn ∧ s.client.cache.isPhantom "uid-n" = true ∧
        "uid-n" ∈ torn := by
  have clean : ∀ node, Batch.sampleClient.cache.isPhantom node = false := fun _ => rfl
  obtain ⟨s, torn, run, phantom⟩ := exists_run_restart
  exact ⟨clean, s, torn, run, phantom, (mem_torn_of_isPhantom clean run).1 _ phantom⟩

/-- From an empty cache on, not every node that is tracked has a record. -/
theorem not_forall_tracked_recorded :
    ¬∀ s torn, Run Batch.sampleClient s torn → ∀ w n node,
      (s.client.cache.tracked w n).contains node = true →
        s.client.cache.records.contains node = true := by
  intro recorded
  obtain ⟨s, torn, run, phantom⟩ := exists_run_restart
  obtain ⟨tracked, hnone⟩ := (Cache.isPhantom_iff _).1 phantom
  obtain ⟨w, n, hnode⟩ := (Cache.isTracked_iff _).1 tracked
  exact Bool.false_ne_true (hnone.symm.trans (recorded s torn run w n _ hnode))

end Restart

end Sharing

end NodeAttestation
