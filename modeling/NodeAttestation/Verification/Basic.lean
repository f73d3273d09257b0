import NodeAttestation.Identifier
import NodeAttestation.Time.Stamp
import NodeAttestation.Wire.Message
import NodeAttestation.Workload

/-!
Verifying attestations. The evidence itself is judged by a verifier that the client is given; it
tells which node an attestation speaks of, and whether the attestation can be relied on.
-/

namespace NodeAttestation

/-- Why a verifier does not accept an attestation. -/
inductive VerificationError where
  | malformed (reason : String)
  | rejected (reason : String)
  | expired (since : Instant)
  | unavailable (reason : String)
deriving DecidableEq

namespace VerificationError

def message : VerificationError → String
  | malformed reason => "Malformed attestation bundle: " ++ reason
  | rejected reason => "Attestation rejected: " ++ reason
  | expired since => "Attestation expired at " ++ since.describe
  | unavailable reason => "Verifier unavailable: " ++ reason

/-- A name that gives nothing of the reason away. -/
def publicName : VerificationError → String
  | malformed _ => "verification.malformed"
  | rejected _ => "verification.rejected"
  | expired _ => "verification.expired"
  | unavailable _ => "verification.unavailable"

end VerificationError

/-- An attestation that can be relied on until it expires. -/
structure Validated where
  attestation : Attestation
  /-- The unique identifier of the node, if the evidence carries one. -/
  node : Option String
  publicKey : Bytes
  expiry : Instant
  cell : Option String
deriving DecidableEq

/-- How a verifier's work ends. -/
inductive Verdict (α : Type) where
  | accepted (value : α)
  | refused (error : VerificationError)
  /-- The verifier breaks down, and whoever asked it with it. -/
  | crashed

/-- A verdict and the nanoseconds it takes to reach it. -/
structure Ruling (α : Type) where
  takes : Nat
  verdict : Verdict α

/-- How a full validation goes: whether it first waits, and for how many milliseconds, and how it
rules from the time on the clock after that, if there is one to be read. -/
structure Validation where
  waits : Option Nat
  rule : Option Instant → Ruling Validated

/-- Tells one verification from another: the request that the attestation came with and the
place among the attestations taken up from it. -/
structure TaskId where
  request : Id
  place : Nat
deriving DecidableEq

/-- A verifier may answer each verification differently. -/
structure Verifier where
  /-- The unique identifier of the node, from the evidence alone. -/
  identify : TaskId → Attestation → Workload → Ruling (Option String)
  validate : TaskId → Attestation → Workload → Validation

end NodeAttestation
