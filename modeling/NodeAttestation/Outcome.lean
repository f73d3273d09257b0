import NodeAttestation.Json.Value
import NodeAttestation.Verification.Basic

/-! What becomes of the attestations of a batch. -/

namespace NodeAttestation

/-- What has been found out about a node. -/
inductive Finding where
  | valid (publicKey : Bytes) (expiry : Instant)
  | invalid (error : VerificationError)
  | alreadyInBatch
  /-- The cache knew the node and now keeps it for this batch too. -/
  | validationNotNeeded
  | noIdentifier
  | expiryTooLarge
deriving DecidableEq

structure Outcome where
  /-- The node, release and kind of release as the attestation gives them. -/
  node : String
  osVersion : String
  releaseType : String
  finding : Finding
  saved : Bool
  identifier : Option String
deriving DecidableEq

def Attestation.outcome (a : Attestation) (finding : Finding) (saved : Bool)
    (identifier : Option String) : Outcome :=
  ⟨a.node, a.osVersion, a.releaseType, finding, saved, identifier⟩

/-- The nodes of one batch, in the order in which their verifications ended. -/
structure FetchedBatch where
  id : Id
  nodes : List Outcome
deriving DecidableEq

def FetchedBatch.savedCount (b : FetchedBatch) : Nat := (b.nodes.filter (·.saved)).length

namespace Finding

def toJson : Finding → Json
  | valid publicKey expiry =>
    .object [("result", .text "valid"), ("publicKey", .text publicKey.toHex),
      ("expiry", .text expiry.stamp)]
  | invalid error => .object [("result", .text "invalid"), ("error", .text error.message)]
  | alreadyInBatch => .object [("result", .text "nodeAlreadyExistsInBatch")]
  | validationNotNeeded => .object [("result", .text "validationNotNeeded")]
  | noIdentifier => .object [("result", .text "noUniqueIdentifier")]
  | expiryTooLarge => .object [("result", .text "validatedExpiryTooLarge")]

end Finding

def Outcome.toJson (o : Outcome) : Json :=
  .object [
    ("identifier", .text o.node),
    ("cloudOsVersion", .text o.osVersion),
    ("cloudOsReleaseType", .text o.releaseType),
    ("validationResult", o.finding.toJson),
    ("savedToCache", .bool o.saved),
    ("uniqueNodeIdentifier", .ofOption o.identifier)]

/-- The batch with its request under a given name. -/
def FetchedBatch.toJson (name : Id → String) (b : FetchedBatch) : Json :=
  .object [("id", .text (name b.id)), ("nodes", .array (b.nodes.map Outcome.toJson))]

end NodeAttestation
