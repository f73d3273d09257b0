import NodeAttestation.Cache.Basic
import NodeAttestation.Exchange
import NodeAttestation.RateLimit.Limiter
import NodeAttestation.Telemetry
import NodeAttestation.Time.Clock

/-!
The client as its invocations find it and leave it: the clocks it reads, its cache, its limiter,
and a log of what it has done, the oldest action first.
-/

namespace NodeAttestation

inductive Action where
  | connecting (request : Id)
  | requested (request : Request)
  /-- The connection has broken over a request. -/
  | interrupted (request : Request)
  | identifying (task : TaskId)
  | validating (task : TaskId)
  | emitted (event : Event)
  | applied (limit : RateLimit)
  | persisted
deriving DecidableEq

structure Client where
  clock : Clock
  /-- Nanoseconds that have passed, whatever the clock is set to. -/
  uptime : Nat
  cache : Cache
  limiter : Limiter
  /-- How many identifiers have been minted. -/
  minted : Nat
  log : List Action
deriving DecidableEq

namespace Client

def start (clock : Clock) (limiter : Limiter) : Client := ⟨clock, 0, .empty, limiter, 0, []⟩

def now? (c : Client) : Option Instant := c.clock.now?

def record (c : Client) (action : Action) : Client := { c with log := c.log ++ [action] }

def emit (c : Client) (event : Event) : Client := c.record (.emitted event)

def pass (c : Client) (nanos : Nat) : Client :=
  { c with clock := c.clock.pass nanos, uptime := c.uptime + nanos }

def mint (c : Client) : Id × Client := (⟨c.minted⟩, { c with minted := c.minted + 1 })

def applyLimit? (c : Client) (limit : RateLimit) : Option Client :=
  (c.limiter.applyAt? c.now? limit).map fun limiter =>
    ({ c with limiter := limiter }).record (.applied limit)

def persistLimits (c : Client) : Client :=
  ({ c with limiter := c.limiter.persist }).record .persisted

/-- Applies an entry if it is accepted. Without a time on the clock, and by an entry that would live
on beyond the calendar, everything is brought down. -/
def receiveLimit? (settings : Settings) (entry : PushedLimit) (c : Client) : Option Client :=
  match c.now? with
  | none => none
  | some now =>
    match RateLimit.ofPushed now settings entry with
    | .ok limit => c.applyLimit? limit
    | .error .beyondCalendar => none
    | .error _ => some c

/-- Receives the entries of a message one after the other, no time passing between them, and persists
the limits. -/
def receiveLimits (settings : Settings) : List PushedLimit → Client → Option Unit × Client
  | [], c => (some (), c.persistLimits)
  | entry :: entries, c =>
    match c.receiveLimit? settings entry with
    | some c => receiveLimits settings entries c
    | none => (none, c)

end Client

end NodeAttestation
