import NodeAttestation.Json.Record
import NodeAttestation.RateLimit.Basic

/-! Rate limits as the JSON text in which they outlast the client. -/

namespace NodeAttestation.RateLimit

namespace Filter

def toJson (f : Filter) : Json :=
  .object [
    ("bundleIdentifier", .ofOption f.bundle),
    ("featureIdentifier", .ofOption f.feature),
    ("workloadType", .ofOption f.workloadType),
    ("workloadTags", .ofTextMap f.workloadTags)]

def shape : Json.Shape Filter where
  name := "RateLimitFilter"
  fields := [
    .option "bundleIdentifier" Json.readString fun f value => { f with bundle := value },
    .option "featureIdentifier" Json.readString fun f value => { f with feature := value },
    .option "workloadType" Json.readString fun f value => { f with workloadType := value },
    .required "workloadTags" Json.readTextMap fun f value => { f with workloadTags := value }]
  start := ⟨none, none, none, .empty⟩
  defaults := false

end Filter

def toJson (l : RateLimit) : Json :=
  .object [
    ("filter", l.filter.toJson),
    ("requestCount", .ofNat l.requestCount.toNat),
    ("windowSecs", .double l.windowSeconds),
    ("jitterRate", .double l.jitter),
    ("expiresAt", .text l.expiresAt.stamp)]

def shape : Json.Shape RateLimit where
  name := "RateLimitConfiguration"
  fields := [
    .required "filter" Filter.shape.read fun l value => { l with filter := value },
    .required "requestCount" Json.readUInt32 fun l value => { l with requestCount := value },
    .required "windowSecs" Json.readDouble fun l value => { l with windowSeconds := value },
    .required "jitterRate" Json.readDouble fun l value => { l with jitter := value },
    .required "expiresAt" Json.readStamp fun l value => { l with expiresAt := value }]
  start := ⟨Filter.shape.start, 0, .zero, .zero, .epoch⟩
  defaults := false

/-- The text of a state file. -/
def listText (limits : List RateLimit) : String := (Json.array (limits.map toJson)).indented

def ofListText (text : String) : Except Json.Fault (List RateLimit) :=
  Json.readDocument (Json.readList shape.read) text

end NodeAttestation.RateLimit
