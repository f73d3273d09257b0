import NodeAttestation.Bytes
import NodeAttestation.Double.Basic
import NodeAttestation.SortedMap

/-! What client and service say to each other. -/

namespace NodeAttestation

/-- The evidence of one node, as it is received. -/
structure Attestation where
  node : String
  bundle : Bytes
  osVersion : String
  releaseType : String
  unvalidatedCell : Option String
  ensemble : Option String
deriving DecidableEq, Inhabited

def Attestation.empty : Attestation := ⟨"", [], "", "", none, none⟩

/-- A rate limit pushed by the service, not yet validated. -/
structure PushedLimit where
  bundle : Option String
  feature : Option String
  workloadType : Option String
  workloadTags : SortedMap String String
  requestCount : UInt32
  windowSeconds : Double
  lifetimeSeconds : Double
  jitter : Double
deriving DecidableEq, Inhabited

def PushedLimit.empty : PushedLimit := ⟨none, none, none, .empty, 0, .zero, .zero, .zero⟩

/-- One message of a response. -/
inductive Response where
  | empty
  | attestation (a : Attestation)
  | limits (entries : List PushedLimit)
deriving DecidableEq, Inhabited

structure AttestationRequest where
  /-- Whether attestations may be streamed, where the client speaks of its abilities at all. -/
  streaming : Option Bool
  count : UInt32
deriving DecidableEq, Inhabited

def AttestationRequest.forCount (count : UInt32) : AttestationRequest := ⟨some true, count⟩

end NodeAttestation
