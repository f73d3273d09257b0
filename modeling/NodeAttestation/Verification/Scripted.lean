import NodeAttestation.Verification.Basic

/-! Verifiers whose answers are written down beforehand. -/

namespace NodeAttestation

/-- When a scripted attestation expires. -/
inductive ScriptedExpiry where
  | at (time : Instant)
  | within (span : Span)
deriving DecidableEq

/-- What a verifier does with an attestation. -/
structure VerifierScript where
  /-- Milliseconds that identifying the node takes. -/
  identifying : Nat
  crashesIdentifying : Bool
  identityError : Option VerificationError
  node : Option String
  waits : Option Nat
  /-- Milliseconds that validation takes after it has waited. -/
  validating : Nat
  crashesValidating : Bool
  error : Option VerificationError
  validatedNode : Option String
  publicKey : Bytes
  cell : Option String
  expiry : ScriptedExpiry
deriving DecidableEq

namespace VerifierScript

/-- A ruling that takes some milliseconds. A verifier that has no value breaks down. -/
def ruling {α : Type} (millis : Nat) (crashes : Bool) (error : Option VerificationError)
    (value : Option α) : Ruling α where
  takes := millis * 1000000
  verdict := match crashes, error, value with
    | true, _, _ => .crashed
    | false, some e, _ => .refused e
    | false, none, some value => .accepted value
    | false, none, none => .crashed

def expiresAt? (s : VerifierScript) (now : Instant) : Option Instant :=
  match s.expiry with
  | .at time => some time
  | .within span => now.add? span

/-- The validated attestation; an expiry that the calendar does not reach gives none. -/
def validated? (s : VerifierScript) (a : Attestation) (now : Instant) : Option Validated :=
  (s.expiresAt? now).map fun expiry => ⟨a, s.validatedNode, s.publicKey, expiry, s.cell⟩

def identify (s : VerifierScript) : Ruling (Option String) :=
  ruling s.identifying s.crashesIdentifying s.identityError (some s.node)

/-- The verifier reads the clock before anything else, and breaks down if it cannot. -/
def rule (s : VerifierScript) (a : Attestation) : Option Instant → Ruling Validated
  | none => ⟨0, .crashed⟩
  | some now => ruling s.validating s.crashesValidating s.error (s.validated? a now)

def validate (s : VerifierScript) (a : Attestation) : Validation := ⟨s.waits, s.rule a⟩

end VerifierScript

namespace Verifier

def scripted (script : Attestation → VerifierScript) : Verifier where
  identify _ a _ := (script a).identify
  validate _ a _ := (script a).validate a

end Verifier

/-- Attestations are accepted for an hour, unless their nodes are listed here. -/
structure VerifierLists where
  unreadable : List String
  withoutIdentifier : List String
  withoutValidatedIdentifier : List String
  mismatched : List String
  lifetimes : SortedMap String Span
  /-- Milliseconds that every validation waits. -/
  waits : Option Nat
deriving DecidableEq

namespace VerifierLists

def script (l : VerifierLists) (a : Attestation) : VerifierScript :=
  let node := a.node
  let identifier := "uid-" ++ node
  { identifying := 0
    crashesIdentifying := false
    identityError :=
      if l.unreadable.contains node then some (.malformed ("unreadable bundle for " ++ node))
      else none
    node := if l.withoutIdentifier.contains node then none else some identifier
    waits := l.waits
    validating := 0
    crashesValidating := false
    error :=
      if l.mismatched.contains node then some (.rejected ("measurement mismatch for " ++ node))
      else none
    validatedNode :=
      if l.withoutValidatedIdentifier.contains node then none else some identifier
    publicKey := Bytes.ofText node
    cell := a.unvalidatedCell
    expiry := .within ((l.lifetimes.find? node).getD (Span.hours 1)) }

def verifier (l : VerifierLists) : Verifier := .scripted l.script

end VerifierLists

end NodeAttestation
