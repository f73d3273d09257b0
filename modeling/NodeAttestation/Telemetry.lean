import NodeAttestation.Identifier
import NodeAttestation.Json.Value
import NodeAttestation.Time.Stamp

/-! What a client reports about its work: nodes it has received and validations that failed. -/

namespace NodeAttestation

/-- On whose behalf nodes have been fetched. -/
inductive NodeSource where
  | prefetch
  | prewarm
deriving DecidableEq

def NodeSource.name : NodeSource → String
  | .prefetch => "prefetch"
  | .prewarm => "prewarm"

/-- What the reports of one invocation have in common. -/
structure Reporting where
  environment : String
  clientInfo : String
  locale : String
  bundle : Option String
  feature : Option String
deriving DecidableEq

/-- The report of an attestation that failed full validation. -/
structure FailureMetric where
  request : Id
  time : Instant
  reporting : Reporting
  node : String
  /-- The public name of the error. -/
  error : String
  elapsedMillis : Nat
deriving DecidableEq

inductive Event where
  /-- The unique identifiers of the nodes that a batch has brought. -/
  | nodesReceived (nodes : List String) (source : NodeSource)
  | validationFailed (metric : FailureMetric)
deriving DecidableEq

/-- The metric with its request under a given name. -/
def FailureMetric.toJson (name : Id → String) (m : FailureMetric) : Json :=
  .object [
    ("clientRequestId", .text (name m.request)),
    ("eventTime", .text m.time.stamp),
    ("environment", .text m.reporting.environment),
    ("clientInfo", .text m.reporting.clientInfo),
    ("featureId", .ofOption m.reporting.feature),
    ("bundleId", .ofOption m.reporting.bundle),
    ("locale", .text m.reporting.locale),
    ("isPrefetchedAttestation", .bool true),
    ("nodeIdentifier", .text m.node),
    ("error", .text m.error),
    ("verificationTimeMs", .ofNat m.elapsedMillis)]

end NodeAttestation
