import NodeAttestation.Time.Instant

/-! Clocks that can be set to any time, though not every time can be read off them. -/

namespace NodeAttestation

structure Clock where
  /-- Nanoseconds since the epoch. -/
  nanos : Int
deriving DecidableEq

namespace Clock

/-- A number of seconds and nanoseconds after the epoch. -/
def ofParts (seconds nanos : Int) : Clock := ⟨seconds * nanosPerSecond + nanos⟩

/-- The time that is read off a clock. One that is set to before the epoch or to beyond the
calendar cannot be read. -/
def now? (clock : Clock) : Option Instant :=
  if clock.nanos < 0 then none else Instant.ofNanos? clock.nanos

def pass (clock : Clock) (nanos : Nat) : Clock := ⟨clock.nanos + nanos⟩

end Clock

end NodeAttestation
