/-!
Instants of the UTC time line between the first and the last day that the calendar knows, to the
nanosecond. The nanoseconds of a leap second run on past a thousand million.
-/

namespace NodeAttestation

def nanosPerSecond : Int := 1000000000

def secondsPerDay : Int := 86400

/-- A span of time in nanoseconds. -/
abbrev Span := Int

def Span.seconds (n : Int) : Span := n * nanosPerSecond

def Span.millis (n : Int) : Span := n * 1000000

def Span.hours (n : Int) : Span := Span.seconds (n * 3600)

/-- No span has more milliseconds than this. -/
def Span.maxMillis : Nat := 2 ^ 63 - 1

/-- A span of whole seconds, unless it is too long for one. -/
def Span.ofSeconds? (n : Int) : Option Span :=
  if n.natAbs * 1000 ≤ maxMillis then some (.seconds n) else none

structure Instant where
  second : Int
  nano : Nat
  earliest_le : -8334601228800 ≤ second
  le_latest : second ≤ 8210266876799
  nano_lt : nano < 2000000000
deriving DecidableEq

namespace Instant

def earliest : Instant := ⟨-8334601228800, 0, by decide, by decide, by decide⟩

def epoch : Instant := ⟨0, 0, by decide, by decide, by decide⟩

instance : Inhabited Instant := ⟨epoch⟩

def ofParts? (second : Int) (nano : Nat) : Option Instant :=
  if h : -8334601228800 ≤ second ∧ second ≤ 8210266876799 ∧ nano < 2000000000 then
    some ⟨second, nano, h.1, h.2.1, h.2.2⟩
  else none

/-- Nanoseconds since the epoch. -/
def nanos (t : Instant) : Int := t.second * nanosPerSecond + t.nano

/-- The instant a number of nanoseconds after the epoch, unless the calendar does not reach it. -/
def ofNanos? (n : Int) : Option Instant :=
  ofParts? (n / nanosPerSecond) (n % nanosPerSecond).toNat

/-- Whether the instant lies in a leap second. -/
def isLeap (t : Instant) : Bool := nanosPerSecond ≤ t.nano

/-- The instant a span later, unless the calendar does not reach it. Forward out of a leap second
is as far as out of the second before it, and back as far as out of the second after it. -/
def add? (t : Instant) (span : Span) : Option Instant :=
  let seconds := span.tdiv nanosPerSecond
  let nano := t.nano + span.tmod nanosPerSecond
  if t.isLeap && seconds == 0 && nano < 2 * nanosPerSecond then ofParts? t.second nano.toNat
  else if t.isLeap && 0 ≤ seconds then ofNanos? (t.nanos + span - nanosPerSecond)
  else ofNanos? (t.nanos + span)

def secondOfDay (t : Instant) : Nat := (t.second % secondsPerDay).toNat

/-- A leap second counts on the way from it to another instant, if that is later in its day. -/
def leapBefore (leap other : Instant) : Span :=
  if leap.isLeap && leap.secondOfDay < other.secondOfDay then nanosPerSecond else 0

/-- The span from the second instant to the first. -/
def sub (a b : Instant) : Span := a.nanos - b.nanos + leapBefore b a - leapBefore a b

protected def le (a b : Instant) : Prop :=
  a.second < b.second ∨ (a.second = b.second ∧ a.nano ≤ b.nano)

protected def lt (a b : Instant) : Prop :=
  a.second < b.second ∨ (a.second = b.second ∧ a.nano < b.nano)

instance : LE Instant := ⟨Instant.le⟩

instance : LT Instant := ⟨Instant.lt⟩

instance (a b : Instant) : Decidable (a ≤ b) :=
  inferInstanceAs (Decidable (a.second < b.second ∨ (a.second = b.second ∧ a.nano ≤ b.nano)))

instance (a b : Instant) : Decidable (a < b) :=
  inferInstanceAs (Decidable (a.second < b.second ∨ (a.second = b.second ∧ a.nano < b.nano)))

end Instant

end NodeAttestation
