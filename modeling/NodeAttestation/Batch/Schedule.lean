import NodeAttestation.Batch.Work

/-!
Schedules decide what happens next in a batch. Fetching a batch ends under every schedule, for
each turn takes work off it.
-/

namespace NodeAttestation

/-- Names the next turn from those that were named so far, the latest first. -/
abbrev Schedule := List Batch.Turn → Batch → Batch.Turn

namespace Schedule

/-- Whether tasks have gone on since a finished one was last counted. -/
def isRunning : List Batch.Turn → Bool
  | ⟨_, .step _⟩ :: _ => true
  | _ => false

def firstAwake? (b : Batch) : Option Nat := b.tasks.findIdx? (Task.isAwake b.timer)

/-- The first of the tasks that wake the earliest. -/
def firstToWake? (b : Batch) : Option Nat :=
  match (b.tasks.map Task.wakes).min? with
  | none => none
  | some earliest => b.tasks.findIdx? (·.wakes == earliest)

/-- Lets the tasks go on in the order they were taken up, each until it finishes or sleeps, and
lets time run on when all of them sleep and none has finished. -/
def runTasks (b : Batch) : Batch.Act :=
  match firstAwake? b with
  | some index => .step index
  | none =>
    if !b.finished.isEmpty then .collect
    else
      match firstToWake? b with
      | some index => .step index
      | none => .proceed

/-- Tasks only go on while one has to be waited for and none has finished, and while the limits
are being written to their file. The clock stands still. -/
def inTurn : Schedule := fun history b =>
  ⟨0, match b.phase with
    | .reading => .receive
    | .storing => ((firstAwake? b).map .step).getD .proceed
    | _ => if !isRunning history && !b.finished.isEmpty then .collect else runTasks b⟩

end Schedule

namespace Batch

/-- The result of a batch under a schedule, and what it leaves behind. -/
def finish (plan : BatchPlan) (schedule : Schedule) :
    (budget : Nat) → List Turn → (b : Batch) → b.work < budget → Result × Client
  | 0, _, _, h => absurd h (Nat.not_lt_zero _)
  | budget + 1, history, b, h =>
    match hresult : b.result? with
    | some result => (result, b.client)
    | none =>
      let turn := schedule history b
      finish plan schedule budget (turn :: history) (b.advance plan turn)
        (Nat.lt_of_lt_of_le (work_advance_lt plan turn (by simp [isEnded, hresult]))
          (Nat.le_of_lt_succ h))

def run (plan : BatchPlan) (schedule : Schedule) (b : Batch) : Result × Client :=
  finish plan schedule (b.work + 1) [] b (Nat.lt_succ_self _)

end Batch

namespace BatchPlan

/-- The wire holds counts below 2 ^ 32; a larger one is asked for as the largest of these. -/
def requestCount (plan : BatchPlan) : UInt32 := .ofNat (min plan.most (2 ^ 32 - 1))

def request (plan : BatchPlan) (headers : Headers) (transport : Transport) : Request where
  id := plan.job.request
  endpoint := plan.settings.serviceUrl
  path := plan.settings.requestPath
  headers := headers
  body := (AttestationRequest.forCount plan.requestCount).encode
  transport := transport

/-- What the cache held for the batch is forgotten once the service has agreed to send it anew. -/
def process (plan : BatchPlan) (schedule : Schedule) (body : Body) (c : Client) :
    Batch.Result × Client :=
  let c := { c with cache := c.cache.deleteBatch plan.job.workload plan.job.batch }
  let maxLength := plan.settings.maxFrameLength.toNat
  (Batch.start c (Frame.items Response.decode maxLength body)).run plan schedule

def fetch (plan : BatchPlan) (schedule : Schedule) (request : Request) (reply : Reply)
    (c : Client) : Batch.Result × Client :=
  let c := c.record (.connecting plan.job.request)
  match reply with
  | .unreachable reason => (.error (.error (.transport reason)), c)
  | .broken reason => (.error (.error (.transport reason)), c.record (.interrupted request))
  | .response status body =>
    let c := c.record (.requested request)
    if status = 200 then plan.process schedule body c
    else (.error (.error (.status status)), c)

end BatchPlan

end NodeAttestation
