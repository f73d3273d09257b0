import NodeAttestation.Verification.Task

/-!
Fetching one batch: its messages are read in order, and the attestations among them are verified
side by side, a bounded number at a time. What happens next is left open wherever it depends on
which of several tasks goes on first; `act?` says what each choice leads to.
-/

namespace NodeAttestation

/-- How fetching ends if not with a batch. -/
inductive Failure where
  | error (e : Error)
  /-- The client breaks down. -/
  | crashed
deriving DecidableEq

structure BatchPlan where
  job : Assignment
  settings : Settings
  /-- Attestations asked for; no more are taken up. -/
  most : Nat

namespace Batch

/-- Verifications in flight at a time. -/
def maxInFlight : Nat := 10

/-- Running totals of the outcomes so far. -/
structure Collected where
  nodes : List Outcome
  saved : Nat
  identifiers : List String
deriving DecidableEq

def Collected.empty : Collected := ⟨[], 0, []⟩

/-- A task that the verifier has brought down counts for nothing. -/
def Collected.add (c : Collected) : Option Outcome → Collected
  | none => c
  | some outcome =>
    { nodes := c.nodes ++ [outcome]
      saved := if outcome.saved then c.saved + 1 else c.saved
      identifiers := c.identifiers ++ outcome.identifier.toList }

/-- The batch and how many of its nodes have been saved. -/
abbrev Result := Except Failure (FetchedBatch × Nat)

inductive Phase where
  | reading
  /-- The limits are being written to their file. -/
  | storing
  /-- An attestation has arrived when as many as may be were in flight. -/
  | waiting (a : Attestation)
  /-- All messages have been read. -/
  | draining
  | ended (result : Result)

inductive Act where
  | receive
  /-- One step of a task in flight, by its position. -/
  | step (index : Nat)
  /-- A finished task is counted. -/
  | collect
  /-- Goes on when there is nothing more to wait for. -/
  | proceed
deriving DecidableEq

/-- An act and the nanoseconds that pass before it. -/
structure Turn where
  pause : Nat
  act : Act
deriving DecidableEq

end Batch

structure Batch where
  client : Client
  phase : Batch.Phase
  messages : List (Frame.Item Response)
  /-- The tasks that are not finished, in the order they were taken up. -/
  tasks : List Task
  /-- What came of the tasks that are finished and not yet counted, in the order they finished. -/
  finished : List (Option Outcome)
  collected : Batch.Collected
  /-- Attestations that have arrived. -/
  received : Nat
  submitted : Nat
  /-- Milliseconds to which waiting tasks have let time run on. -/
  timer : Nat

namespace Batch

def start (client : Client) (messages : List (Frame.Item Response)) : Batch :=
  ⟨client, .reading, messages, [], [], .empty, 0, 0, 0⟩

def inFlight (b : Batch) : Nat := b.tasks.length + b.finished.length

/-- Takes an attestation up, unless the outcomes and the tasks in flight are enough. -/
def takeUp (plan : BatchPlan) (a : Attestation) (b : Batch) : Batch :=
  if plan.most ≤ b.collected.nodes.length + b.inFlight then b
  else
    { b with
      tasks := b.tasks ++ [⟨b.submitted, a, .submitted⟩]
      submitted := b.submitted + 1 }

/-- Ends a batch; tasks in flight are dropped where they stand. -/
def fail (b : Batch) (failure : Failure) : Batch :=
  { b with phase := .ended (.error failure), tasks := [], finished := [] }

def receiveAttestation (plan : BatchPlan) (a : Attestation) (b : Batch) : Batch :=
  let b := { b with received := b.received + 1 }
  if b.inFlight = maxInFlight then { b with phase := .waiting a } else b.takeUp plan a

def receiveLimits (plan : BatchPlan) (entries : List PushedLimit) (b : Batch) : Batch :=
  let (done, client) := b.client.receiveLimits plan.settings entries
  let b := { b with client := client }
  match done with
  | some () => if client.limiter.hasFile then { b with phase := .storing } else b
  | none => b.fail .crashed

def receiveMessage (plan : BatchPlan) (b : Batch) : Response → Batch
  | .empty => b
  | .attestation a => b.receiveAttestation plan a
  | .limits entries => b.receiveLimits plan entries

def receiveItem (plan : BatchPlan) (item : Frame.Item Response) (b : Batch) : Batch :=
  match Error.ofItem item with
  | .ok message => b.receiveMessage plan message
  | .error e => b.fail (.error e)

def receive? (plan : BatchPlan) (b : Batch) : Option Batch :=
  match b.phase with
  | .reading =>
    match b.messages with
    | [] => some { b with phase := .draining }
    | item :: items => some ({ b with messages := items }.receiveItem plan item)
  | _ => none

def settle (index : Nat) (task : Task) (b : Batch) : Task.Progress → Batch
  | .going stage => { b with tasks := b.tasks.set index { task with stage := stage } }
  | .finished outcome =>
    { b with tasks := b.tasks.eraseIdx index, finished := b.finished ++ [outcome] }

/-- A step of a task that sleeps lets time run on until it wakes. -/
def stepTask (plan : BatchPlan) (index : Nat) (task : Task) (b : Batch) : Batch :=
  let timer := max b.timer task.wakes
  let next := task.step plan.job timer b.client
  { b with timer := timer, client := next.2 }.settle index task next.1

def result? (b : Batch) : Option Result :=
  match b.phase with
  | .ended result => some result
  | _ => none

def isEnded (b : Batch) : Bool := b.result?.isSome

def step? (plan : BatchPlan) (index : Nat) (b : Batch) : Option Batch :=
  if b.isEnded then none else (b.tasks[index]?).map fun task => b.stepTask plan index task

/-- What is waited for has come. -/
def resume (plan : BatchPlan) (a : Attestation) (b : Batch) : Batch :=
  { b with phase := .reading }.takeUp plan a

def collect? (plan : BatchPlan) (b : Batch) : Option Batch :=
  match b.finished with
  | [] => none
  | outcome :: finished =>
    let b := { b with finished := finished, collected := b.collected.add outcome }
    match b.phase with
    | .waiting a => some (b.resume plan a)
    | .draining => some b
    | _ => none

/-- Ends a batch that has been read and verified in full. A response without attestations is no
batch, even if none were wanted. -/
def conclude (plan : BatchPlan) (b : Batch) : Batch :=
  if b.received = 0 then b.fail (.error .emptyResponse)
  else
    { b with
      client := b.client.emit (.nodesReceived b.collected.identifiers plan.job.source)
      phase := .ended (.ok (⟨plan.job.request, b.collected.nodes⟩, b.collected.saved)) }

def proceed? (plan : BatchPlan) (b : Batch) : Option Batch :=
  match b.phase with
  | .storing => some { b with phase := .reading }
  | .waiting a => if b.inFlight = 0 then some (b.resume plan a) else none
  | .draining => if b.inFlight = 0 then some (b.conclude plan) else none
  | _ => none

/-- What an act leads to, if it is possible. -/
def act? (plan : BatchPlan) (b : Batch) : Act → Option Batch
  | .receive => b.receive? plan
  | .step index => b.step? plan index
  | .collect => b.collect? plan
  | .proceed => b.proceed? plan

/-- An act that is possible as long as the batch has not ended. -/
def usualAct (b : Batch) : Act :=
  match b.phase with
  | .reading => .receive
  | .storing => .proceed
  | _ =>
    if !b.finished.isEmpty then .collect
    else if !b.tasks.isEmpty then .step 0
    else .proceed

def pause (b : Batch) (nanos : Nat) : Batch := { b with client := b.client.pass nanos }

/-- The turn that is named, or the usual act where that is impossible. -/
def advance (plan : BatchPlan) (turn : Turn) (b : Batch) : Batch :=
  let b := b.pause turn.pause
  ((b.act? plan turn.act).or (b.act? plan b.usualAct)).getD b

end Batch

end NodeAttestation
