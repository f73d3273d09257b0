import NodeAttestation.Invocation
import NodeAttestation.Proofs.Batch.Step
import NodeAttestation.Proofs.Verification.Effect
import NodeAttestation.Verification.Scripted

/-! # Runs of a batch, between whose acts the client can be changed by whatever else it does. -/

namespace NodeAttestation

namespace BatchPlan

/-- The batch as it stands when the service has agreed to send it. -/
def begin (plan : BatchPlan) (messages : List (Frame.Item Response)) (c : Client) : Batch :=
  .start { c with cache := c.cache.deleteBatch plan.job.workload plan.job.batch } messages

def messages (plan : BatchPlan) (body : Body) : List (Frame.Item Response) :=
  Frame.items Response.decode plan.settings.maxFrameLength.toNat body

theorem process_eq (plan : BatchPlan) (schedule : Schedule) (body : Body) (c : Client) :
    plan.process schedule body c = (plan.begin (plan.messages body) c).run plan schedule := rfl

end BatchPlan

namespace Batch

/-- What a batch can come to by any acts in any order, and what has passed through it by then. -/
inductive Run (plan : BatchPlan) (others : Client → Client → Prop) (first : Batch) :
    Batch → History → Prop
  | start : Run plan others first first .empty
  | act {b next : Batch} {h : History} {act : Act} (run : Run plan others first b h)
      (possible : b.act? plan act = some next) :
      Run plan others first next (h.append (b.gained next))
  | meanwhile {b : Batch} {h : History} {client : Client} (run : Run plan others first b h)
      (change : others b.client client) : Run plan others first { b with client := client } h

/-- Whether a batch has ended without nodes. -/
def hasFailed (b : Batch) : Bool :=
  match b.phase with
  | .ended (.error _) => true
  | _ => false

/-- What a batch holds at its end, and before it when all messages have been read. -/
def Settled (plan : BatchPlan) (b : Batch) : Prop :=
  match b.phase with
  | .draining => b.messages = []
  | .ended (.ok fetched) =>
    b.messages = [] ∧ b.inFlight = 0 ∧ b.received ≠ 0 ∧
      fetched = (⟨plan.job.request, b.collected.nodes⟩, b.collected.saved)
  | .ended (.error _) => b.inFlight = 0
  | _ => True

section Runs

variable {plan : BatchPlan} {others : Client → Client → Prop} {first b next : Batch} {h : History}

/-- What holds at the start, after every step and whatever else changes the client holds of every
run. -/
theorem Run.invariant {I : Batch → History → Prop} (run : Run plan others first b h)
    (start : I first .empty)
    (step : ∀ b h gains next, Run plan others first b h → I b h → Step plan b gains next →
      I next (h.append gains))
    (meanwhile : ∀ b h client, I b h → others b.client client → I { b with client := client } h) :
    I b h := by
  induction run with
  | start => exact start
  | act run possible ih => exact step _ _ _ _ run ih (act?_step possible)
  | meanwhile _ change ih => exact meanwhile _ _ _ ih change

theorem Run.mono {wider : Client → Client → Prop} (run : Run plan others first b h)
    (le : ∀ c next, others c next → wider c next) : Run plan wider first b h := by
  induction run with
  | start => exact .start
  | act _ possible ih => exact ih.act possible
  | meanwhile _ change ih => exact ih.meanwhile (le _ _ change)

/-- No step is possible once a batch has failed. -/
theorem Step.hasFailed_eq_false {gains : History} (step : Step plan b gains next) :
    b.hasFailed = false := by
  have hopen : b.isEnded = false → b.hasFailed = false := by
    rw [isEnded, result?, hasFailed]
    cases b.phase with
    | ended result =>
      intro h
      cases h
    | _ =>
      intro _
      rfl
  cases step with
  | went unended _ _ => exact hopen unended
  | finished unended _ _ => exact hopen unended
  | exhausted phase | ignored phase | arrived phase | held phase | limited phase | broken phase
  | refused phase | released phase | counted phase | persisted phase | resumed phase
  | vacant phase | concluded phase => rw [hasFailed, phase]

theorem Admission.phase {a : Attestation} {taken : List Attestation}
    (admission : Admission plan a b taken next) : next.phase = b.phase := by
  cases admission <;> rfl

theorem Admission.messages {a : Attestation} {taken : List Attestation}
    (admission : Admission plan a b taken next) : next.messages = b.messages := by
  cases admission <;> rfl

theorem Admission.client_eq {a : Attestation} {taken : List Attestation}
    (admission : Admission plan a b taken next) : next.client = b.client := by
  cases admission <;> rfl

theorem Settled.of_unended (settled : Settled plan b) (unended : b.isEnded = false)
    (hphase : next.phase = b.phase) (hmessages : next.messages = b.messages) :
    Settled plan next := by
  rw [isEnded, result?] at unended
  unfold Settled at settled ⊢
  rw [hphase, hmessages]
  cases hcase : b.phase with
  | draining => rwa [hcase] at settled
  | ended result =>
    rw [hcase] at unended
    cases unended
  | _ => exact trivial

theorem Step.settled {gains : History} (settled : Settled plan b) (step : Step plan b gains next) :
    Settled plan next := by
  cases step with
  | exhausted _ messages => exact messages
  | ignored phase _ _ =>
    unfold Settled
    rw [phase]
    exact trivial
  | arrived phase _ _ _ admission =>
    unfold Settled
    rw [admission.phase, phase]
    exact trivial
  | held => exact trivial
  | limited _ _ _ _ phase' =>
    unfold Settled
    rcases phase' with rfl | rfl <;> exact trivial
  | broken => rfl
  | refused => rfl
  | went unended _ _ => exact settled.of_unended unended rfl rfl
  | finished unended _ _ => exact settled.of_unended unended rfl rfl
  | released _ _ admission =>
    unfold Settled
    rw [admission.phase]
    exact trivial
  | counted phase _ =>
    unfold Settled at settled ⊢
    rw [phase] at settled
    dsimp only
    rw [phase]
    exact settled
  | persisted => exact trivial
  | resumed _ _ admission =>
    unfold Settled
    rw [admission.phase]
    exact trivial
  | vacant => rfl
  | concluded phase idle received =>
    unfold Settled at settled
    rw [phase] at settled
    exact ⟨settled, idle, received, rfl⟩

theorem Run.settled (run : Run plan others first b h) (reading : first.phase = .reading) :
    Settled plan b := by
  refine run.invariant (I := fun b _ => Settled plan b) ?_ ?_ ?_
  · unfold Settled
    rw [reading]
    exact trivial
  · intro b h gains next _ settled step
    exact step.settled settled
  · intro b h client settled _
    exact settled

theorem Admission.sound {a : Attestation} {taken : List Attestation}
    (admission : Admission plan a b taken next) (sound : ∀ task ∈ b.tasks, task.stage.IsSound) :
    ∀ task ∈ next.tasks, task.stage.IsSound := by
  cases admission with
  | skipped => exact sound
  | taken =>
    intro task htask
    rcases List.mem_append.1 htask with hold | hnew
    · exact sound task hold
    · cases List.mem_singleton.1 hnew
      exact trivial

theorem Step.sound {gains : History} (sound : ∀ task ∈ b.tasks, task.stage.IsSound)
    (step : Step plan b gains next) : ∀ task ∈ next.tasks, task.stage.IsSound := by
  cases step with
  | broken | refused | vacant => exact fun _ htask => nomatch htask
  | exhausted | ignored | held | limited | counted | persisted | concluded => exact sound
  | arrived _ _ _ _ admission | released _ _ admission | resumed _ _ admission =>
    exact admission.sound sound
  | @went index timer task stage client _ found step =>
    have effect := task.effect_of_step plan.job b.client
      (sound task (List.mem_of_getElem? found)) step
    intro other hother
    rcases List.mem_or_eq_of_mem_set hother with hold | rfl
    · exact sound other hold
    · exact effect.going_cases.2
  | finished => exact fun task htask => sound task (List.mem_of_mem_eraseIdx htask)

theorem Run.sound (run : Run plan others first b h) (fresh : first.tasks = []) :
    ∀ task ∈ b.tasks, task.stage.IsSound := by
  refine run.invariant (I := fun b _ => ∀ task ∈ b.tasks, task.stage.IsSound) ?_ ?_ ?_
  · intro task htask
    rw [fresh] at htask
    cases htask
  · intro b h gains next _ sound step
    exact step.sound sound
  · intro b h client sound _
    exact sound

theorem result?_eq_some {result : Result} : b.result? = some result ↔ b.phase = .ended result := by
  rw [result?]
  constructor
  · intro h
    split at h
    · rename_i hphase
      cases h
      exact hphase
    · cases h
  · intro h
    rw [h]

/-- A batch that ends with its nodes has read all messages and counted all tasks. -/
theorem Run.fetched_eq {fetched : FetchedBatch × Nat} (run : Run plan others first b h)
    (reading : first.phase = .reading) (hresult : b.result? = some (.ok fetched)) :
    b.messages = [] ∧ b.inFlight = 0 ∧ b.received ≠ 0 ∧
      fetched = (⟨plan.job.request, b.collected.nodes⟩, b.collected.saved) := by
  have settled := run.settled reading
  unfold Settled at settled
  rwa [result?_eq_some.1 hresult] at settled

end Runs

section Play

/-- Plays acts one after the other and keeps account of what passes through the batch. -/
def play? (plan : BatchPlan) : List Act → Batch × History → Option (Batch × History)
  | [], played => some played
  | act :: acts, (b, h) =>
    (b.act? plan act).bind fun next => play? plan acts (next, h.append (b.gained next))

theorem Run.play {α : Type} {plan : BatchPlan} {others : Client → Client → Prop} {first b : Batch}
    {h : History} (run : Run plan others first b h) (acts : List Act)
    (view : Batch × History → α) (seen : α)
    (played : (play? plan acts (b, h)).map view = some seen) :
    ∃ last later, Run plan others first last later ∧ view (last, later) = seen := by
  induction acts generalizing b h with
  | nil => exact ⟨b, h, run, Option.some.inj played⟩
  | cons act acts ih =>
    rw [play?, Option.map_bind, Option.bind_eq_some_iff] at played
    obtain ⟨next, possible, played⟩ := played
    exact ih (run.act possible) played

end Play

section Sample

def sampleJob : Assignment where
  workload := ⟨"inference", .empty⟩
  verifier := VerifierLists.verifier ⟨[], [], [], [], .empty, none⟩
  request := ⟨0⟩
  reportedAs := ⟨0⟩
  batch := 0
  fetchTime := .epoch
  source := .prefetch
  reporting := ⟨"staging", "client", "en", none, none⟩

def samplePlan (most : Nat) : BatchPlan := ⟨sampleJob, .initial, most⟩

def sampleClient : Client := .start ⟨0⟩ (.record ⟨[], 0⟩)

def sampleResponse (node : String) : Response :=
  .attestation ⟨node, [], "1.0", "release", none, none⟩

def sampleAttestation (node : String) : Frame.Item Response := .message (sampleResponse node)

def sampleExpiry : Instant :=
  { Instant.epoch with second := 3600, earliest_le := by decide, le_latest := by decide }

def sampleOutcome (node : String) : Outcome :=
  ⟨node, "1.0", "release", .valid (Bytes.ofText node) sampleExpiry, true, some ("uid-" ++ node)⟩

def sampleInvocation (settings : Settings) (overrides : Overrides) : Invocation where
  settings := settings
  overrides := overrides
  host := ⟨"client", none, "en"⟩
  pipeline := ⟨"inference", .empty⟩
  selection := .all
  source := .prefetch
  bundle := none
  feature := none

def sampleSetting : Invocation.Setting :=
  ⟨sampleJob.workload, sampleJob.reporting, .empty, sampleJob.fetchTime⟩

def sampleServices (messages : List Response) : Services where
  network _ := .response 200 ⟨messages.map fun message => Frame.encode message.encode, none⟩
  verifier := sampleJob.verifier
  schedule := .inTurn

end Sample

section Schedules

variable {plan : BatchPlan} {others : Client → Client → Prop} {first b : Batch} {h : History}

theorem Run.advance (run : Run plan others first b h) (passes : ∀ c nanos, others c (c.pass nanos))
    (turn : Turn) : ∃ later, Run plan others first (b.advance plan turn) later := by
  have hpause : Run plan others first (b.pause turn.pause) h := run.meanwhile (passes _ _)
  rw [Batch.advance]
  cases hturn : (b.pause turn.pause).act? plan turn.act with
  | some next =>
    rw [Option.some_or, Option.getD_some]
    exact ⟨_, hpause.act hturn⟩
  | none =>
    rw [Option.none_or]
    cases husual : (b.pause turn.pause).act? plan (b.pause turn.pause).usualAct with
    | some next =>
      rw [Option.getD_some]
      exact ⟨_, hpause.act husual⟩
    | none =>
      rw [Option.getD_none]
      exact ⟨_, hpause⟩

/-- Under any schedule a batch is brought to its end by a run. -/
theorem Run.finish (run : Run plan others first b h) (passes : ∀ c nanos, others c (c.pass nanos))
    (schedule : Schedule) (budget : Nat) (turns : List Turn) (hwork : b.work < budget) :
    ∃ last later, Run plan others first last later ∧
      last.result? = some (Batch.finish plan schedule budget turns b hwork).1 ∧
      last.client = (Batch.finish plan schedule budget turns b hwork).2 := by
  induction budget generalizing b h turns with
  | zero => exact absurd hwork (Nat.not_lt_zero _)
  | succ budget ih =>
    rw [Batch.finish]
    split
    · rename_i result hresult
      exact ⟨b, h, run, hresult, rfl⟩
    · obtain ⟨later, hlater⟩ := run.advance passes (schedule turns b)
      exact ih hlater _ _

theorem exists_run_of_process (plan : BatchPlan) (schedule : Schedule) (body : Body) (c : Client) :
    ∃ last later,
      Run plan (fun c next => ∃ nanos, next = c.pass nanos) (plan.begin (plan.messages body) c)
        last later ∧
      last.result? = some (plan.process schedule body c).1 ∧
      last.client = (plan.process schedule body c).2 := by
  rw [BatchPlan.process_eq]
  exact Run.start.finish (fun _ nanos => ⟨nanos, rfl⟩) schedule _ _ _

end Schedules

end Batch

namespace BatchPlan

/-- All that fetching can come to: the exchange fails before a batch has been promised, or a run
brings the batch to its end. -/
inductive Fetches (plan : BatchPlan) (request : Request) (c : Client) :
    Batch.Result → Client → Prop
  | unconnected {e : Error} :
      Fetches plan request c (.error (.error e)) (c.record (.connecting plan.job.request))
  | interrupted {e : Error} :
      Fetches plan request c (.error (.error e))
        ((c.record (.connecting plan.job.request)).record (.interrupted request))
  | declined {e : Error} :
      Fetches plan request c (.error (.error e))
        ((c.record (.connecting plan.job.request)).record (.requested request))
  | processed {messages : List (Frame.Item Response)} {last : Batch} {h : Batch.History}
      {result : Batch.Result}
      (run : Batch.Run plan (fun c next => ∃ nanos, next = c.pass nanos)
        (plan.begin messages ((c.record (.connecting plan.job.request)).record
          (.requested request))) last h)
      (ended : last.result? = some result) : Fetches plan request c result last.client

theorem fetch_fetches (plan : BatchPlan) (schedule : Schedule) (request : Request) (reply : Reply)
    (c : Client) :
    plan.Fetches request c (plan.fetch schedule request reply c).1
      (plan.fetch schedule request reply c).2 := by
  cases reply with
  | unreachable reason => exact .unconnected
  | broken reason => exact .interrupted
  | response status body =>
    rw [fetch]
    split
    · obtain ⟨last, h, run, ended, hclient⟩ := Batch.exists_run_of_process plan schedule body
        ((c.record (.connecting plan.job.request)).record (.requested request))
      rw [← hclient]
      exact .processed run ended
    · exact .declined

theorem Fetches.id_eq {plan : BatchPlan} {request : Request} {c next : Client}
    {fetched : FetchedBatch × Nat} (fetches : plan.Fetches request c (.ok fetched) next) :
    fetched.1.id = plan.job.request := by
  cases fetches with
  | processed run ended =>
    obtain ⟨-, -, -, rfl⟩ := run.fetched_eq rfl ended
    rfl

end BatchPlan

end NodeAttestation
