import NodeAttestation.Proofs.Batch.Change
import NodeAttestation.Proofs.Cache.Locality
import NodeAttestation.Proofs.Time.Elapsing
import NodeAttestation.Proofs.Verification.Identification

/-!
# What fetching a batch leaves alone

All batches keep the records of their nodes in one cache. A batch that is fetched drops no record
that another one needs. As long as such a record has not expired, a task that comes upon its node
finds it live, so that it does not go on to validate the node and replace the record.
-/

namespace NodeAttestation

/-- Whether a record has not expired at a time that is still to be read off a clock. -/
def NodeRecord.Lasts (record : NodeRecord) (clock : Clock) : Prop :=
  ∃ (later : Clock) (now : Instant),
    clock.nanos ≤ later.nanos ∧ later.now? = some now ∧ now < record.expiry

/-- Another batch than this one keeps the record of a node, and it is live at the end. -/
structure Client.Shares (w : Workload) (n : Nat) (c last : Client) (node : String)
    (record : NodeRecord) : Prop where
  elsewhere : c.cache.TrackedElsewhere w n node
  found : c.cache.records.find? node = some record
  live : ∃ now, last.now? = some now ∧ now < record.expiry

section Lasting

variable {record : NodeRecord} {clock later : Clock} {now : Instant}

theorem NodeRecord.Lasts.of_le (lasts : record.Lasts later) (h : clock.nanos ≤ later.nanos) :
    record.Lasts clock := by
  obtain ⟨latest, now, hle, hnow, hlive⟩ := lasts
  exact ⟨latest, now, Int.le_trans h hle, hnow, hlive⟩

theorem NodeRecord.Lasts.lt_expiry (lasts : record.Lasts clock) (h : clock.now? = some now) :
    now < record.expiry := by
  obtain ⟨latest, later, hle, hlater, hlive⟩ := lasts
  exact Instant.lt_of_le_of_lt (Clock.now?_le hle h hlater) hlive

theorem Client.Shares.lasts {w : Workload} {n : Nat} {c last : Client} {node : String}
    (shares : c.Shares w n last node record) : record.Lasts last.clock := by
  obtain ⟨now, hnow, hlive⟩ := shares.live
  exact ⟨last.clock, now, Int.le_refl _, hnow, hlive⟩

end Lasting

namespace Batch

theorem spares_write (job : Assignment) (c : Cache) (stage : Task.Stage) :
    c.Spares job.workload job.batch (stage.write job c) := by
  cases stage with
  | known node => exact Cache.spares_track c _ _ _ node
  | approved v node => exact Cache.spares_save c _ _ _ v
  | _ => exact .refl _ _ c

section Changes

variable {plan : BatchPlan} {others : Client → Client → Prop} {first b next : Batch} {h : History}

theorem Change.spares (change : Change plan b next) :
    b.client.cache.Spares plan.job.workload plan.job.batch next.client.cache := by
  cases change with
  | aside client =>
    rw [client.cache_eq]
    exact .refl _ _ _
  | went _ transition | finished _ transition =>
    rw [transition.cache_eq]
    exact spares_write _ _ _

theorem Run.spares (run : Run plan others first b h)
    (kept : ∀ c next, others c next → next.cache = c.cache) :
    first.client.cache.Spares plan.job.workload plan.job.batch b.client.cache := by
  refine run.induct (I := fun b => first.client.cache.Spares _ _ b.client.cache) ?_ ?_ ?_
  · exact .refl _ _ _
  · intro b _ next _ spares change
    exact spares.trans change.spares
  · intro b client spares other
    rw [← kept _ _ other] at spares
    exact spares

theorem Run.clock_le (run : Run plan others first b h)
    (forward : ∀ c next, others c next → c.clock.nanos ≤ next.clock.nanos) :
    first.client.clock.nanos ≤ b.client.clock.nanos := by
  refine run.induct (I := fun b => first.client.clock.nanos ≤ b.client.clock.nanos) ?_ ?_ ?_
  · exact Int.le_refl _
  · intro b _ next _ hle change
    exact Int.le_trans hle change.clock_le
  · intro b client hle other
    exact Int.le_trans hle (forward _ _ other)

end Changes

/-- As long as the record of a node lasts, it is in the cache and no task validates the node. -/
structure Keeps (plan : BatchPlan) (node : String) (record : NodeRecord) (b : Batch) : Prop where
  vouched : ∀ task ∈ b.tasks, task.Vouched plan.job
  found : record.Lasts b.client.clock → b.client.cache.records.find? node = some record
  unvalidated : record.Lasts b.client.clock → ∀ task ∈ b.tasks, ¬task.Validates plan.job node

section Keeping

variable {plan : BatchPlan} {others : Client → Client → Prop} {first b next : Batch} {h : History}
  {node : String} {record : NodeRecord}

theorem Keeps.isLive (keeps : Keeps plan node record b) (lasts : record.Lasts b.client.clock)
    {now : Instant} (clock : b.client.now? = some now) :
    b.client.cache.isLive now node = true := by
  rw [Cache.isLive_iff]
  exact ⟨record, keeps.found lasts, lasts.lt_expiry clock⟩

theorem Keeps.aside (keeps : Keeps plan node record b)
    (client : b.client.Aside plan.settings next.client)
    (tasks : ∀ task ∈ next.tasks, task ∈ b.tasks ∨ task.stage = .submitted) :
    Keeps plan node record next := by
  refine ⟨?_, ?_, ?_⟩
  · intro task htask
    rcases tasks task htask with hold | hnew
    · exact keeps.vouched task hold
    · exact Task.vouched_of_submitted hnew
  · intro lasts
    rw [client.clock_eq] at lasts
    rw [client.cache_eq]
    exact keeps.found lasts
  · intro lasts task htask
    rw [client.clock_eq] at lasts
    rcases tasks task htask with hold | hnew
    · exact keeps.unvalidated lasts task hold
    · exact Task.not_validates_of_submitted hnew

theorem Keeps.went (keeps : Keeps plan node record b) (agrees : plan.job.verifier.Agrees)
    {task : Task} {timer : Nat} {stage : Task.Stage} (member : task ∈ b.tasks)
    (transition : task.Transition plan.job timer b.client (.going stage) next.client)
    (tasks : ∀ other ∈ next.tasks, other ∈ b.tasks ∨ other = { task with stage := stage }) :
    Keeps plan node record next := by
  have vouched := keeps.vouched task member
  refine ⟨?_, ?_, ?_⟩
  · intro other hother
    rcases tasks other hother with hold | rfl
    · exact keeps.vouched other hold
    · exact transition.vouched agrees vouched
  · intro lasts
    rw [transition.cache_eq_of_going]
    exact keeps.found (lasts.of_le transition.clock_le)
  · intro lasts other hother validates
    have lasts := lasts.of_le transition.clock_le
    rcases tasks other hother with hold | rfl
    · exact keeps.unvalidated lasts other hold validates
    · -- If the task has only now begun to, it has found no live record, but there is one.
      rcases transition.validates vouched validates with hbefore | ⟨now, clock, dead⟩
      · exact keeps.unvalidated lasts task member hbefore
      · rw [keeps.isLive lasts clock] at dead
        cases dead

theorem Keeps.finished (keeps : Keeps plan node record b) {task : Task} {timer : Nat}
    {outcome : Option Outcome} (member : task ∈ b.tasks)
    (transition : task.Transition plan.job timer b.client (.finished outcome) next.client)
    (tasks : ∀ other ∈ next.tasks, other ∈ b.tasks) : Keeps plan node record next := by
  refine ⟨?_, ?_, ?_⟩
  · intro other hother
    exact keeps.vouched other (tasks other hother)
  · intro lasts
    have lasts := lasts.of_le transition.clock_le
    rw [transition.record_eq (keeps.vouched task member) (keeps.unvalidated lasts task member)]
    exact keeps.found lasts
  · intro lasts other hother
    exact keeps.unvalidated (lasts.of_le transition.clock_le) other (tasks other hother)

theorem Keeps.run (keeps : Keeps plan node record first) (agrees : plan.job.verifier.Agrees)
    (kept : ∀ c next, others c next → next.cache = c.cache)
    (forward : ∀ c next, others c next → c.clock.nanos ≤ next.clock.nanos)
    (run : Run plan others first b h) : Keeps plan node record b := by
  refine run.induct (I := Keeps plan node record) keeps ?_ ?_
  · intro b _ next _ keeps change
    cases change with
    | aside client tasks => exact keeps.aside client tasks
    | went member transition tasks => exact keeps.went agrees member transition tasks
    | finished member transition tasks => exact keeps.finished member transition tasks
  · intro b client keeps other
    refine ⟨keeps.vouched, ?_, ?_⟩
    · intro lasts
      exact (congrArg (·.records.find? node) (kept _ _ other)).trans
        (keeps.found (lasts.of_le (forward _ _ other)))
    · intro lasts
      exact keeps.unvalidated (lasts.of_le (forward _ _ other))

theorem keeps_begin (items : List (Frame.Item Response)) {c : Client}
    (elsewhere : c.cache.TrackedElsewhere plan.job.workload plan.job.batch node)
    (found : c.cache.records.find? node = some record) :
    Keeps plan node record (plan.begin items c) where
  vouched _ htask := nomatch htask
  found _ := (Cache.find?_records_deleteBatch_of_elsewhere elsewhere).trans found
  unvalidated _ _ htask := nomatch htask

end Keeping

section Begun

variable {plan : BatchPlan} {others : Client → Client → Prop} {items : List (Frame.Item Response)}
  {c : Client} {mid last : Batch} {h later : History}

theorem Run.spares_of_begin (run : Run plan others (plan.begin items c) last h)
    (kept : ∀ c next, others c next → next.cache = c.cache) :
    c.cache.Spares plan.job.workload plan.job.batch last.client.cache := by
  have begun : c.cache.Spares plan.job.workload plan.job.batch (plan.begin items c).client.cache :=
    Cache.spares_deleteBatch ..
  exact begun.trans (run.spares kept)

theorem Run.keeps_of_shares {node : String} {record : NodeRecord}
    (before : Run plan others (plan.begin items c) mid h) (after : Run plan others mid last later)
    (kept : ∀ c next, others c next → next.cache = c.cache) (agrees : plan.job.verifier.Agrees)
    (forward : ∀ c next, others c next → c.clock.nanos ≤ next.clock.nanos)
    (shares : c.Shares plan.job.workload plan.job.batch last.client node record) :
    last.client.cache.records.find? node = some record ∧
      ∀ task ∈ mid.tasks, ¬task.Validates plan.job node := by
  have begun := keeps_begin items shares.elsewhere shares.found
  have midway := begun.run agrees kept forward before
  have ended := midway.run agrees kept forward after
  constructor
  · exact ended.found shares.lasts
  · -- What lasts until the end has lasted midway.
    exact midway.unvalidated (shares.lasts.of_le (after.clock_le forward))

end Begun

end Batch

section Fetches

variable {plan : BatchPlan} {request : Request} {c next : Client} {result : Batch.Result}

theorem BatchPlan.Fetches.spares (fetches : plan.Fetches request c result next) :
    c.cache.Spares plan.job.workload plan.job.batch next.cache := by
  cases fetches with
  | unconnected | interrupted | declined => exact .refl _ _ _
  | processed run =>
    apply run.spares_of_begin
    intro c next passed
    exact (Client.idles_of_passed passed).cache

theorem BatchPlan.Fetches.found_of_shares (fetches : plan.Fetches request c result next)
    (agrees : plan.job.verifier.Agrees) {node : String} {record : NodeRecord}
    (shares : c.Shares plan.job.workload plan.job.batch next node record) :
    next.cache.records.find? node = some record := by
  cases fetches with
  | unconnected | interrupted | declined => exact shares.found
  | processed run =>
    refine (run.keeps_of_shares .start ?_ agrees ?_
      ⟨shares.elsewhere, shares.found, shares.live⟩).1
    · intro c next passed
      exact (Client.idles_of_passed passed).cache
    · intro c next passed
      exact (Client.idles_of_passed passed).clock

end Fetches

namespace Batch

/-- However far a batch comes and whatever its end is, all other batches have the nodes and fetch
times they had, and the records of their nodes are in the cache. If the verifier takes a node for no
other one and the clock runs forward, those of the records that have not expired at the end are the
same as before, and at no time has a task gone on to validate their nodes. -/
theorem spares_others (plan : BatchPlan) (c : Client) :
    (∀ others items mid last h later, (∀ c next, others c next → next.cache = c.cache) →
      Run plan others (plan.begin items c) mid h → Run plan others mid last later →
        c.cache.Spares plan.job.workload plan.job.batch last.client.cache ∧
          (plan.job.verifier.Agrees →
            (∀ c next, others c next → c.clock.nanos ≤ next.clock.nanos) →
              ∀ node record, c.Shares plan.job.workload plan.job.batch last.client node record →
                last.client.cache.records.find? node = some record ∧
                  ∀ task ∈ mid.tasks, ¬task.Validates plan.job node)) ∧
      ∀ schedule request reply result next, plan.fetch schedule request reply c = (result, next) →
        c.cache.Spares plan.job.workload plan.job.batch next.cache ∧
          (plan.job.verifier.Agrees →
            ∀ node record, c.Shares plan.job.workload plan.job.batch next node record →
              next.cache.records.find? node = some record) := by
  constructor
  · intro others items mid last h later kept before after
    constructor
    · exact (before.spares_of_begin kept).trans (after.spares kept)
    · intro agrees forward node record shares
      exact before.keeps_of_shares after kept agrees forward shares
  · intro schedule request reply result next fetched
    have fetches := plan.fetch_fetches schedule request reply c
    rw [fetched] at fetches
    constructor
    · exact fetches.spares
    · intro agrees node record shares
      exact fetches.found_of_shares agrees shares

section Shared

def sharedNode : Validated :=
  ⟨⟨"n", [], "1.0", "release", none, none⟩, some "uid-n", [], sampleExpiry, none⟩

/-- A client that keeps a node for another batch than the sampled one. -/
def sharedClient : Client :=
  { sampleClient with cache := (Cache.empty.save sharedNode sampleJob.workload 1 .epoch).2 }

def sharedRecord : NodeRecord := Cache.recordOf sharedNode

def sharedRequest : Request := (samplePlan 1).request .empty ⟨false, false, true, none⟩

/-- The node comes again for the sampled batch. -/
def sharedFetch : Result × Client :=
  (samplePlan 1).fetch .inTurn sharedRequest ((sampleServices [sampleResponse "n"]).network 0)
    sharedClient

theorem spares_others_of_sharedNode :
    (∃ mid last h later,
      Run (samplePlan 1) (fun c next => ∃ nanos, next = c.pass nanos)
        ((samplePlan 1).begin [sampleAttestation "n"] sharedClient) mid h ∧
      Run (samplePlan 1) (fun c next => ∃ nanos, next = c.pass nanos) mid last later ∧
      (last.client.cache.tracked sampleJob.workload 0).contains "uid-n" = true ∧
      last.client.cache.records.find? "uid-n" = some sharedRecord ∧
      ∀ task ∈ mid.tasks, ¬task.Validates sampleJob "uid-n") ∧
    (sharedFetch.2.cache.tracked sampleJob.workload 0).contains "uid-n" = true ∧
      sharedFetch.2.cache.records.find? "uid-n" = some sharedRecord := by
  have played : (play? (samplePlan 1) [.receive, .step 0, .step 0]
      ((samplePlan 1).begin [sampleAttestation "n"] sharedClient, .empty)).map
        (fun midway => (play? (samplePlan 1) [.step 0] (midway.1, .empty)).map fun ended =>
          (ended.1.client.now?,
            (ended.1.client.cache.tracked sampleJob.workload 0).contains "uid-n")) =
      some (some (some .epoch, true)) := by rfl
  obtain ⟨mid, h, before, played⟩ := Run.start.play _ _ _ played
  obtain ⟨last, later, after, ended⟩ := Run.start.play _ _ _ played
  obtain ⟨clock, tracked⟩ := Prod.mk.inj ended
  have elsewhere : sharedClient.cache.TrackedElsewhere sampleJob.workload 0 "uid-n" :=
    ⟨sampleJob.workload, 1, by decide, by rfl⟩
  have isolated := spares_others (samplePlan 1) sharedClient
  constructor
  · have spared := isolated.1 _ _ mid last h later
      (fun _ _ passed => (Client.idles_of_passed passed).cache) before after
    have found := spared.2 (VerifierLists.agrees _)
      (fun _ _ passed => (Client.idles_of_passed passed).clock) _ sharedRecord
      ⟨elsewhere, by rfl, .epoch, clock, by decide⟩
    exact ⟨mid, last, h, later, before, after, tracked, found⟩
  · have spared := isolated.2 .inTurn sharedRequest
      ((sampleServices [sampleResponse "n"]).network 0) sharedFetch.1 sharedFetch.2 rfl
    exact ⟨by rfl, spared.2 (VerifierLists.agrees _) _ sharedRecord
      ⟨elsewhere, by rfl, .epoch, by rfl, by decide⟩⟩

end Shared

end Batch

end NodeAttestation
