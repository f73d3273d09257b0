import NodeAttestation.Verification.Basic

/-!
The cache of validated attestations. A record belongs to a node; batches of workloads track the
nodes that were received for them. A record that no batch tracks any more is dropped.
-/

namespace NodeAttestation

structure NodeRecord where
  attestation : Attestation
  publicKey : Bytes
  expiry : Instant
  validatedCell : Option String
deriving DecidableEq

/-- The nodes of one batch and the time at which the batch was first fetched. -/
structure TrackedBatch where
  fetchTime : Instant
  nodes : SortedSet String
deriving DecidableEq

structure Cache where
  records : SortedMap String NodeRecord
  workloads : SortedMap Workload (SortedMap Nat TrackedBatch)
deriving DecidableEq

inductive SaveOutcome where
  | saved
  /-- The batch tracked the node already. -/
  | alreadyTracked
  /-- There is no node to save the attestation for. -/
  | rejected
deriving DecidableEq

namespace Cache

def empty : Cache := ⟨.empty, .empty⟩

def batches (c : Cache) (w : Workload) : SortedMap Nat TrackedBatch :=
  (c.workloads.find? w).getD .empty

def batch? (c : Cache) (w : Workload) (batch : Nat) : Option TrackedBatch :=
  (c.batches w).find? batch

def tracked (c : Cache) (w : Workload) (batch : Nat) : SortedSet String :=
  match c.batch? w batch with
  | none => .empty
  | some entry => entry.nodes

def trackedCount (c : Cache) (w : Workload) (batch : Nat) : Nat := (c.tracked w batch).size

/-- Whether any batch of any workload tracks a node. -/
def isTracked (c : Cache) (node : String) : Bool :=
  c.workloads.values.any fun batches => batches.values.any fun entry => entry.nodes.contains node

def isLive (c : Cache) (now : Instant) (node : String) : Bool :=
  match c.records.find? node with
  | none => false
  | some record => now < record.expiry

/-- The nodes that a workload tracks in batches not fetched before a time and that have a record
which has not expired. A node of several batches is one member. -/
def freshNodes (c : Cache) (now since : Instant) (w : Workload) : SortedSet String :=
  let recent := (c.batches w).values.filter fun entry => since ≤ entry.fetchTime
  .ofList (((recent.flatMap fun entry => entry.nodes.keys).filter (c.isLive now)).map fun node =>
    (node, ()))

/-- Whether a workload has at least so many fresh nodes; one the cache does not know has none and
never enough. -/
def hasFresh (c : Cache) (now : Instant) (w : Workload) (count : Nat) (since : Instant) : Bool :=
  (c.workloads.find? w).isSome && count ≤ (c.freshNodes now since w).size

def setBatch (c : Cache) (w : Workload) (batch : Nat) (entry : TrackedBatch) : Cache :=
  { c with workloads := c.workloads.insert w ((c.batches w).insert batch entry) }

/-- Adds a node to a batch that does not track it yet. -/
def addNode (c : Cache) (w : Workload) (batch : Nat) (fetchTime : Instant) (node : String) :
    Cache :=
  let entry := (c.batch? w batch).getD ⟨fetchTime, .empty⟩
  c.setBatch w batch { entry with nodes := entry.nodes.insert node () }

/-- Tracks a node for a batch and tells whether the batch tracked it already. -/
def track (c : Cache) (w : Workload) (node : String) (batch : Nat) (fetchTime : Instant) :
    Bool × Cache :=
  if (c.tracked w batch).contains node then (true, c)
  else (false, c.addNode w batch fetchTime node)

def recordOf (v : Validated) : NodeRecord := ⟨v.attestation, v.publicKey, v.expiry, v.cell⟩

/-- Stores a validated attestation and tracks its node, unless the batch does so already. -/
def save (c : Cache) (v : Validated) (w : Workload) (batch : Nat) (fetchTime : Instant) :
    SaveOutcome × Cache :=
  match v.node with
  | none => (.rejected, c)
  | some node =>
    if (c.tracked w batch).contains node then (.alreadyTracked, c)
    else
      let c := c.addNode w batch fetchTime node
      (.saved, { c with records := c.records.insert node (recordOf v) })

/-- Drops the records that no batch tracks. -/
def prune (c : Cache) : Cache :=
  { c with records := c.records.filter fun node _ => c.isTracked node }

/-- The workloads without one batch, and without its workload if that was its last. -/
def withoutBatch (c : Cache) (w : Workload) (batch : Nat) : Cache :=
  match c.workloads.find? w with
  | none => c
  | some batches =>
    let batches := batches.erase batch
    if batches.isEmpty then { c with workloads := c.workloads.erase w }
    else { c with workloads := c.workloads.insert w batches }

/-- Forgets one batch and the records that only it kept. -/
def deleteBatch (c : Cache) (w : Workload) (batch : Nat) : Cache :=
  (c.withoutBatch w batch).prune

end Cache

end NodeAttestation
