import NodeAttestation.Client
import NodeAttestation.Outcome

/-!
The verification of one attestation as a task of atomic steps, between which other tasks can act
on the same cache. A node that the cache knows is tracked for the batch without validation; any
other is validated and saved. A task that needs the time and cannot read the clock breaks down.
-/

namespace NodeAttestation

/-- What the verifications of one batch have in common. -/
structure Assignment where
  workload : Workload
  verifier : Verifier
  request : Id
  /-- The identifier under which the batch is reported. -/
  reportedAs : Id
  batch : Nat
  fetchTime : Instant
  source : NodeSource
  reporting : Reporting

/-- No attestation may be valid for longer. -/
def longestValidity : Span := Span.hours 48

/-- No task sleeps for longer, in milliseconds: thirty years of 365 days. -/
def longestSleep : Nat := 30 * 365 * 86400 * 1000

namespace Task

inductive Stage where
  | submitted
  | identified (node : String)
  /-- The cache had a live record of the node. -/
  | known (node : String)
  | unknown
  /-- Validation has begun at an uptime and goes on when the timer of the batch has run so far. -/
  | asleep (since : Nat) (wake : Nat)
  | validating (since : Nat)
  | validated (v : Validated)
  /-- The validity is not too long. -/
  | approved (v : Validated) (node : String)
deriving DecidableEq

/-- What a step leads to. A task that breaks down is finished without outcome. -/
inductive Progress where
  | going (stage : Stage)
  | finished (outcome : Option Outcome)
deriving DecidableEq

/-- An upper bound of the steps that are left, which every step lowers. -/
def Stage.work : Stage → Nat
  | submitted => 7
  | identified _ => 6
  | unknown => 5
  | asleep _ _ => 4
  | validating _ => 3
  | validated _ => 2
  | approved _ _ => 1
  | known _ => 1

theorem Stage.work_pos (stage : Stage) : 0 < stage.work := by
  cases stage <;> simp [work]

end Task

structure Task where
  place : Nat
  attestation : Attestation
  stage : Task.Stage
deriving DecidableEq

namespace Task

def id (task : Task) (job : Assignment) : TaskId := ⟨job.request, task.place⟩

def ends (task : Task) (finding : Finding) (saved : Bool) (node : Option String) : Progress :=
  .finished (some (task.attestation.outcome finding saved node))

/-- What follows from the verifier's word on which node an attestation speaks of. -/
def onIdentity (task : Task) : Verdict (Option String) → Progress
  | .accepted (some node) => .going (.identified node)
  | .accepted none => task.ends .noIdentifier false none
  | .refused error => task.ends (.invalid error) false none
  | .crashed => .finished none

def identify (job : Assignment) (task : Task) (c : Client) : Progress × Client :=
  let ruling := job.verifier.identify (task.id job) task.attestation job.workload
  (task.onIdentity ruling.verdict, (c.record (.identifying (task.id job))).pass ruling.takes)

def lookUp (node : String) (c : Client) : Progress × Client :=
  match c.now? with
  | none => (.finished none, c)
  | some now => (.going (if c.cache.isLive now node then .known node else .unknown), c)

def onTracked (task : Task) (node : String) (already : Bool) : Progress :=
  if already then task.ends .alreadyInBatch false (some node)
  else task.ends .validationNotNeeded true (some node)

def track (job : Assignment) (task : Task) (node : String) (c : Client) : Progress × Client :=
  let tracked := c.cache.track job.workload node job.batch job.fetchTime
  (task.onTracked node tracked.1, { c with cache := tracked.2 })

def validation (job : Assignment) (task : Task) : Validation :=
  job.verifier.validate (task.id job) task.attestation job.workload

/-- Where a validation that begins at an uptime goes on. -/
def onBegun (timer since : Nat) : Option Nat → Stage
  | none => .validating since
  | some millis => .asleep since (timer + min millis longestSleep)

def beginValidation (job : Assignment) (task : Task) (timer : Nat) (c : Client) :
    Progress × Client :=
  (.going (onBegun timer c.uptime (task.validation job).waits),
    c.record (.validating (task.id job)))

/-- The report of a validation that began at an uptime and has now failed. -/
def failure (job : Assignment) (task : Task) (since : Nat) (error : VerificationError)
    (now : Instant) (c : Client) : FailureMetric where
  request := job.reportedAs
  time := now
  reporting := job.reporting
  node := task.attestation.node
  error := error.publicName
  elapsedMillis := (c.uptime - since) / 1000000

/-- Only a refusal is reported, and by the time on the clock. -/
def onVerdict (job : Assignment) (task : Task) (since : Nat) (c : Client) :
    Verdict Validated → Progress × Client
  | .accepted v => (.going (.validated v), c)
  | .refused error =>
    match c.now? with
    | none => (.finished none, c)
    | some now =>
      (task.ends (.invalid error) false none,
        c.emit (.validationFailed (task.failure job since error now c)))
  | .crashed => (.finished none, c)

def validate (job : Assignment) (task : Task) (since : Nat) (c : Client) : Progress × Client :=
  let ruling := (task.validation job).rule c.now?
  task.onVerdict job since (c.pass ruling.takes) ruling.verdict

def tooLong (v : Validated) (now : Instant) : Bool := longestValidity < v.expiry.sub now

def approve (task : Task) (v : Validated) (now? : Option Instant) : Progress :=
  match v.node with
  | none => task.ends .noIdentifier false none
  | some node =>
    match now? with
    | none => .finished none
    | some now =>
      if tooLong v now then task.ends .expiryTooLarge false none else .going (.approved v node)

def onSaved (task : Task) (v : Validated) (node : String) : SaveOutcome → Progress
  | .saved => task.ends (.valid v.publicKey v.expiry) true (some node)
  | .alreadyTracked => task.ends .alreadyInBatch false (some node)
  | .rejected => task.ends (.valid v.publicKey v.expiry) false (some node)

def save (job : Assignment) (task : Task) (v : Validated) (node : String) (c : Client) :
    Progress × Client :=
  let saved := c.cache.save v job.workload job.batch job.fetchTime
  (task.onSaved v node saved.1, { c with cache := saved.2 })

/-- One atomic step, taken when the timer of the batch has run so far. -/
def step (job : Assignment) (timer : Nat) (task : Task) (c : Client) : Progress × Client :=
  match task.stage with
  | .submitted => task.identify job c
  | .identified node => lookUp node c
  | .known node => task.track job node c
  | .unknown => task.beginValidation job timer c
  | .asleep since _ => (.going (.validating since), c)
  | .validating since => task.validate job since c
  | .validated v => (task.approve v c.now?, c)
  | .approved v node => task.save job v node c

theorem work_lt_of_onIdentity {task : Task} {verdict : Verdict (Option String)} {stage : Stage}
    (h : task.onIdentity verdict = .going stage) : stage.work < 7 := by
  unfold onIdentity at h
  split at h <;> cases h
  simp [Stage.work]

theorem work_lt_of_lookUp {node : String} {c : Client} {stage : Stage}
    (h : (lookUp node c).1 = .going stage) : stage.work < 6 := by
  unfold lookUp at h
  split at h <;> cases h
  split <;> simp [Stage.work]

theorem work_onBegun_lt (timer since : Nat) (waits : Option Nat) :
    (onBegun timer since waits).work < 5 := by
  cases waits <;> simp [onBegun, Stage.work]

theorem work_lt_of_onVerdict {job : Assignment} {task : Task} {since : Nat} {c : Client}
    {verdict : Verdict Validated} {stage : Stage}
    (h : (task.onVerdict job since c verdict).1 = .going stage) : stage.work < 3 := by
  unfold onVerdict at h
  split at h
  · cases h
    simp [Stage.work]
  · split at h <;> cases h
  · cases h

theorem work_lt_of_approve {task : Task} {v : Validated} {now? : Option Instant} {stage : Stage}
    (h : task.approve v now? = .going stage) : stage.work < 2 := by
  unfold approve at h
  split at h
  · cases h
  · split at h
    · cases h
    · split at h <;> cases h
      simp [Stage.work]

theorem onTracked_ne_going (task : Task) (node : String) (already : Bool) (stage : Stage) :
    task.onTracked node already ≠ .going stage := by
  cases already <;> simp [onTracked, ends]

theorem onSaved_ne_going (task : Task) (v : Validated) (node : String) (outcome : SaveOutcome)
    (stage : Stage) : task.onSaved v node outcome ≠ .going stage := by
  cases outcome <;> simp [onSaved, ends]

theorem work_step_lt {job : Assignment} {timer : Nat} {task : Task} {c : Client} {stage : Stage}
    (h : (task.step job timer c).1 = .going stage) : stage.work < task.stage.work := by
  unfold step at h
  split at h <;> rename_i heq <;> rw [heq]
  case h_1 => exact work_lt_of_onIdentity h
  case h_2 => exact work_lt_of_lookUp h
  case h_3 => exact (onTracked_ne_going _ _ _ _ h).elim
  case h_4 =>
    cases h
    exact work_onBegun_lt ..
  case h_5 =>
    cases h
    simp [Stage.work]
  case h_6 => exact work_lt_of_onVerdict h
  case h_7 => exact work_lt_of_approve h
  case h_8 => exact (onSaved_ne_going _ _ _ _ _ h).elim

/-- Whether a task can go on without the timer running on. -/
def isAwake (timer : Nat) (task : Task) : Bool :=
  match task.stage with
  | .asleep _ wake => wake ≤ timer
  | _ => true

/-- What the timer of the batch has to have run to for a task to go on. -/
def wakes (task : Task) : Nat :=
  match task.stage with
  | .asleep _ wake => wake
  | _ => 0

end Task

end NodeAttestation
