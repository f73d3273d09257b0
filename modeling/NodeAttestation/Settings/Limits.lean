import NodeAttestation.Settings.Basic

/-! The limits of one invocation, once the overrides of the service have been weighed. -/

namespace NodeAttestation

structure Limits where
  attestationsPerRequest : Nat
  batches : Nat
  validitySeconds : Nat
deriving DecidableEq

/-- Which batches an invocation fetches. -/
inductive Selection where
  /-- All of them, unless the cache is warm. -/
  | all
  /-- One, to fill up what an invocation has used. -/
  | single (batch : Nat)
deriving DecidableEq

/-- Batches from a first to a last, both included. -/
structure BatchRange where
  first : Nat
  count : Nat
deriving DecidableEq

namespace BatchRange

def last (r : BatchRange) : Nat := r.first + r.count - 1

end BatchRange

def Selection.range (batches : Nat) : Selection → BatchRange
  | .all => ⟨0, max batches 1⟩
  | .single batch => ⟨batch, 1⟩

namespace Limits

/-- The service can lower the attestations per request but not raise them. -/
def resolve (settings : Settings) (overrides : Overrides) : Limits :=
  let own := settings.attestationsPerRequest.toNat
  let pushed := overrides.attestationsPerRequest.getD settings.attestationsPerRequest
  { attestationsPerRequest := max (min pushed.toNat own) 1
    batches := max (overrides.batches.getD settings.batches).toNat 1
    validitySeconds := (overrides.validitySeconds.getD settings.validitySeconds).toNat }

def largestCount : Nat := 2 ^ 64 - 1

/-- How many cached attestations make a cache warm: three requests' worth. -/
def warmCount (l : Limits) : Nat := min (l.attestationsPerRequest * 3) largestCount

/-- How far back a fetch counts as fresh, unless that has more than 63 bits or is too long for a
span. -/
def window? (l : Limits) : Option Span :=
  if l.validitySeconds < 2 ^ 63 then Span.ofSeconds? l.validitySeconds else none

/-- The earliest fetch time that counts as fresh. A window that is no span, or that reaches back
beyond the calendar, counts everything. -/
def freshSince (l : Limits) (now : Instant) : Instant :=
  (l.window?.bind fun window => now.add? (-window)).getD .earliest

end Limits

end NodeAttestation
