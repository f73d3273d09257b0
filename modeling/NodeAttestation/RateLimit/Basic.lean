import NodeAttestation.Double.Notation
import NodeAttestation.Settings.Basic
import NodeAttestation.Wire.Message

/-!
Rate limits. An entry pushed by the service is validated when it is received and lives from then
on for a number of whole milliseconds, which the settings cap.
-/

namespace NodeAttestation

/-- Which requests a limit applies to; an absent part matches everything. -/
structure RateLimit.Filter where
  bundle : Option String
  feature : Option String
  workloadType : Option String
  workloadTags : SortedMap String String
deriving DecidableEq

structure RateLimit where
  filter : RateLimit.Filter
  /-- Requests allowed per window. -/
  requestCount : UInt32
  windowSeconds : Double
  jitter : Double
  expiresAt : Instant
deriving DecidableEq

namespace RateLimit

/-- Why an entry gives no limit. -/
inductive Rejection where
  | window (seconds : Double)
  | lifetime (seconds : Double)
  | jitter (rate : Double)
  /-- The limit would live on beyond the calendar. -/
  | beyondCalendar
deriving DecidableEq

def Rejection.message : Rejection → String
  | window x => "window must be positive, got " ++ String.ofList x.plainText
  | lifetime x => "ttl must be positive, got " ++ String.ofList x.plainText
  | jitter x => "jitter rate must be within [0, 1], got " ++ String.ofList x.plainText
  | beyondCalendar => "expiry out of range"

def maxMillis : Nat := 2 ^ 63 - 1

/-- The smaller of the pushed lifetime and the cap in whole milliseconds. Both the cap in doubles
and the product are rounded before the fraction is dropped. -/
def lifetimeMillis (seconds : Double) (cap : Nat) : Nat :=
  min ((seconds.min (.ofNat cap)).mul (.ofNat 1000)).floorAbs maxMillis

def filterOf (pushed : PushedLimit) : Filter :=
  ⟨pushed.bundle, pushed.feature, pushed.workloadType, pushed.workloadTags⟩

/-- The limit that an entry received now amounts to. -/
def ofPushed (now : Instant) (settings : Settings) (pushed : PushedLimit) :
    Except Rejection RateLimit :=
  if !pushed.windowSeconds.isPositive then .error (.window pushed.windowSeconds)
  else if !pushed.lifetimeSeconds.isPositive then .error (.lifetime pushed.lifetimeSeconds)
  else if !pushed.jitter.inUnitInterval then .error (.jitter pushed.jitter)
  else
    let millis := lifetimeMillis pushed.lifetimeSeconds settings.maxLimitSeconds.toNat
    match now.add? (Span.millis millis) with
    | none => .error .beyondCalendar
    | some expiresAt =>
      .ok ⟨filterOf pushed, pushed.requestCount, pushed.windowSeconds, pushed.jitter, expiresAt⟩

def isExpired (l : RateLimit) (now : Instant) : Bool := l.expiresAt ≤ now

end RateLimit

end NodeAttestation
