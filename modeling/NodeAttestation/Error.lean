import NodeAttestation.File
import NodeAttestation.Frame
import NodeAttestation.Json.Fault

/-! How fetching attestations fails. An error has a message for the one who runs the client and a
public name that gives nothing away. -/

namespace NodeAttestation

inductive Error where
  | http
  | json (fault : Json.Fault)
  | decode (fault : Wire.Fault)
  | access (error : AccessError)
  | headerValue
  | attestationsExist
  | missingBundle
  | missingFeature
  | status (code : Nat)
  | emptyResponse
  | transport (reason : String)
  | tls (reason : String)
  | framing (reason : String)
  | rateLimit (reason : String)
  | settings (reason : String)
deriving DecidableEq

namespace Error

/-- The message, where there is one: JSON faults of form are told by their kind alone. -/
def message? : Error → Option String
  | http => none
  | json (.unsuitable mismatch) => some ("JSON parsing failed: " ++ mismatch.message)
  | json _ => none
  | decode fault => some ("Protobuf decoding failed: " ++ fault.message)
  | access error => some ("IO error: " ++ error.message)
  | headerValue => some "Invalid header value: failed to parse header value"
  | attestationsExist => some "Attestations exist for workload"
  | missingBundle => some "Missing bundle identifier for prewarm request"
  | missingFeature => some "Missing feature identifier for prewarm request"
  | status code => some ("Unexpected status code: " ++ toString code)
  | emptyResponse => some "Prefetch returned empty response"
  | transport reason => some ("Transport error: " ++ reason)
  | tls reason => some ("TLS error: " ++ reason)
  | framing reason => some ("Framing error: " ++ reason)
  | rateLimit reason => some ("Invalid rate limit configuration: " ++ reason)
  | settings reason => some ("Configuration error: " ++ reason)

/-- The public name within the client. -/
def publicKind : Error → String
  | http => "http"
  | json _ => "json"
  | decode _ => "decode"
  | access error => "io(" ++ error.kind.name ++ ")"
  | headerValue => "invalidHeaderValue"
  | attestationsExist => "attestationsExist"
  | missingBundle => "missingBundleIdentifier"
  | missingFeature => "missingFeatureIdentifier"
  | status code => "unexpectedStatusCode(" ++ toString code ++ ")"
  | emptyResponse => "emptyPrefetchResponse"
  | transport _ => "transport"
  | tls _ => "tls"
  | framing _ => "framing"
  | rateLimit _ => "invalidRateLimitConfiguration"
  | settings _ => "configuration"

def publicName (e : Error) : String := "prefetch." ++ e.publicKind

/-- The error that an item of a body stands for, unless it is a message. -/
def ofItem {α : Type} : Frame.Item α → Except Error α
  | .message value => .ok value
  | .undecodable fault => .error (.decode fault)
  | .broken fault => .error (.framing fault.message)

end Error

end NodeAttestation
