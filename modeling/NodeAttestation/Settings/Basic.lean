import NodeAttestation.Workload

/-! What a client is configured with, and what the service may set in its place. -/

namespace NodeAttestation

/-- The deployment that attestations are fetched from. -/
inductive Environment where
  | production
  | staging
  | development
deriving DecidableEq

namespace Environment

def name : Environment → String
  | .production => "production"
  | .staging => "staging"
  | .development => "development"

/-- In production a batch is reported under another identifier than it is requested with. -/
def separatesReporting : Environment → Bool
  | .production => true
  | _ => false

def choices : List (String × Environment) :=
  [(production.name, production), (staging.name, staging), (development.name, development)]

end Environment

structure Settings where
  environment : Environment
  serviceUrl : String
  requestPath : String
  /-- Attestations asked for in one request; the service can only lower this. -/
  attestationsPerRequest : UInt64
  batches : UInt64
  /-- How long fetched attestations count towards a warm cache. -/
  validitySeconds : UInt64
  ignoreCertificateErrors : Bool
  forceRelay : Bool
  testOptions : Option String
  overrideCell : Option String
  defaultBundle : Option String
  userAgent : String
  maxFrameLength : UInt64
  /-- No rate limit pushed by the service lives longer. -/
  maxLimitSeconds : UInt64
deriving DecidableEq

/-- Values pushed by the service; where there is none the client's own setting holds. -/
structure Overrides where
  attestationsPerRequest : Option UInt64
  batches : Option UInt64
  validitySeconds : Option UInt64
deriving DecidableEq

def Overrides.empty : Overrides := ⟨none, none, none⟩

namespace Settings

def initial : Settings where
  environment := .production
  serviceUrl := "https://attestation.invalid"
  requestPath := "/v1/prefetch"
  attestationsPerRequest := 60
  batches := 3
  validitySeconds := 14400
  ignoreCertificateErrors := false
  forceRelay := false
  testOptions := none
  overrideCell := none
  defaultBundle := none
  userAgent := "attestation-prefetch/0.1.0"
  maxFrameLength := 4194304
  maxLimitSeconds := 86400

instance : Inhabited Settings := ⟨initial⟩

/-- Why well-formed settings cannot be used. -/
inductive Defect where
  | serviceUrl (url : String)
  | requestPath (path : String)
  | maxFrameLength
deriving DecidableEq

def Defect.message : Defect → String
  | .serviceUrl url => "service URL must be http(s): " ++ url
  | .requestPath path => "request path must start with '/': " ++ path
  | .maxFrameLength => "max frame length must be non-zero"

def defect? (s : Settings) : Option Defect :=
  if !("https://".isPrefixOf s.serviceUrl || "http://".isPrefixOf s.serviceUrl) then
    some (.serviceUrl s.serviceUrl)
  else if !"/".isPrefixOf s.requestPath then some (.requestPath s.requestPath)
  else if s.maxFrameLength == 0 then some .maxFrameLength
  else none

/-- What follows the first `://` of a text, or the whole text. -/
def afterScheme : List Char → Option (List Char)
  | [] => none
  | ':' :: '/' :: '/' :: rest => some rest
  | _ :: rest => afterScheme rest

/-- The part of the service address between the scheme and the path. -/
def hostname (s : Settings) : String :=
  let url := s.serviceUrl.toList
  String.ofList (((afterScheme url).getD url).takeWhile (· != '/'))

end Settings

end NodeAttestation
