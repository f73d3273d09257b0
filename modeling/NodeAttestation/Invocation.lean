import NodeAttestation.Batch.Schedule
import NodeAttestation.Host
import NodeAttestation.Settings.Limits

/-!
Invocations: batches fetched one after the other for a workload, until all have been or one fails.
-/

namespace NodeAttestation

structure Invocation where
  settings : Settings
  overrides : Overrides
  host : Host
  pipeline : Pipeline
  selection : Selection
  /-- On whose behalf: in the background, or for a caller who has to name bundle and feature. -/
  source : NodeSource
  bundle : Option String
  feature : Option String
deriving DecidableEq

/-- What an invocation depends on besides the client it changes. -/
structure Services where
  network : Network
  verifier : Verifier
  schedule : Schedule

/-- The bundle and feature that the traffic is attributed to. -/
structure Caller where
  bundle : Option String
  feature : String
deriving DecidableEq

/-- The time on the clock, without which an invocation breaks down. -/
def Client.now (c : Client) : Except Failure Instant :=
  match c.now? with
  | some now => .ok now
  | none => .error .crashed

namespace Invocation

def limits (i : Invocation) : Limits := .resolve i.settings i.overrides

/-- Whether a cache holds enough fresh nodes for a workload. -/
def isWarm (i : Invocation) (workload : Workload) (now : Instant) (cache : Cache) : Bool :=
  cache.hasFresh now workload i.limits.warmCount (i.limits.freshSince now)

/-- Batches are only fetched for a cold cache, unless one is asked for by its number. -/
def checkCold (i : Invocation) (workload : Workload) (c : Client) : Except Failure Unit :=
  match i.selection with
  | .single _ => .ok ()
  | .all => do
    if i.isWarm workload (← c.now) c.cache then .error (.error .attestationsExist) else .ok ()

def backgroundFeature : String := "backgroundActivity.prefetchRequest"

def caller (i : Invocation) : Except Error Caller :=
  match i.source with
  | .prefetch => .ok ⟨i.settings.defaultBundle, backgroundFeature⟩
  | .prewarm =>
    match i.bundle, i.feature with
    | none, _ => .error .missingBundle
    | some _, none => .error .missingFeature
    | some bundle, some feature => .ok ⟨some bundle, feature⟩

/-- The headers that all requests of an invocation have in common. -/
def headers (i : Invocation) (workload : Workload) (caller : Caller) : Except Error Headers := do
  let headers ← Headers.put .empty "x-client-info" i.host.osInfo
  let headers ← headers.put "x-workload" workload.kind
  let headers ← headers.put "x-workload-parameters" workload.argumentsText
  let headers ← headers.put "x-feature-id" caller.feature
  let headers ← headers.putOption "x-bundle-id" caller.bundle
  let headers ← headers.putOption "x-automated-device-group" i.host.deviceGroup
  let headers ← headers.putOption "x-test-options" i.settings.testOptions
  let headers ← headers.putOption "x-server-hint" i.settings.overrideCell
  let headers ←
    headers.putOption "x-server-hint-force" (i.settings.overrideCell.map fun _ => "true")
  let headers ← headers.put "content-type" "application/x-protobuf"
  headers.put "user-agent" i.settings.userAgent

def transport (i : Invocation) : Transport where
  ignoreCertificateErrors := i.settings.ignoreCertificateErrors
  forceRelay := i.settings.forceRelay
  compression := true
  bundle := i.bundle

def reporting (i : Invocation) (caller : Caller) : Reporting where
  environment := i.settings.environment.name
  clientInfo := i.host.osInfo
  locale := i.host.locale
  bundle := caller.bundle
  feature := some caller.feature

/-- Mints the identifier of a request and that under which it is reported. -/
def mintIds (i : Invocation) (c : Client) : Id × Id × Client :=
  let (request, c) := c.mint
  if i.settings.environment.separatesReporting then
    let (reportedAs, c) := c.mint
    (request, reportedAs, c)
  else (request, request, c)

/-- What has been settled before the first batch is fetched. -/
structure Setting where
  workload : Workload
  reporting : Reporting
  headers : Headers
  fetchTime : Instant

def plan (i : Invocation) (verifier : Verifier) (setting : Setting) (request reportedAs : Id)
    (batch : Nat) : BatchPlan where
  job := {
    workload := setting.workload
    verifier := verifier
    request := request
    reportedAs := reportedAs
    batch := batch
    fetchTime := setting.fetchTime
    source := i.source
    reporting := setting.reporting }
  settings := i.settings
  most := i.limits.attestationsPerRequest

def fetchBatch (i : Invocation) (services : Services) (setting : Setting) (attempt batch : Nat)
    (c : Client) : Batch.Result × Client :=
  let (request, reportedAs, c) := i.mintIds c
  let plan := i.plan services.verifier setting request reportedAs batch
  let headers := setting.headers.insert "x-request-uuid" request.text
  plan.fetch services.schedule (plan.request headers i.transport) (services.network attempt) c

abbrev Result := Except Failure (List FetchedBatch)

/-- Fetches so many batches that follow one another; the first that fails ends it all. -/
def fetchBatches (i : Invocation) (services : Services) (setting : Setting) :
    (count attempt batch : Nat) → Client → Result × Client
  | 0, _, _, c => (.ok [], c)
  | count + 1, attempt, batch, c =>
    match i.fetchBatch services setting attempt batch c with
    | (.error failure, c) => (.error failure, c)
    | (.ok fetched, c) =>
      let (rest, c) := i.fetchBatches services setting count (attempt + 1) (batch + 1) c
      (rest.map (fetched.1 :: ·), c)

/-- What has to be settled for a workload, or why nothing is fetched for it. -/
def prepare (i : Invocation) (workload : Workload) (c : Client) : Except Failure Setting := do
  i.checkCold workload c
  let caller ← i.caller.mapError .error
  let headers ← (i.headers workload caller).mapError .error
  return ⟨workload, i.reporting caller, headers, ← c.now⟩

/-- Fetches the batches of an invocation. For a pipeline that names no workload there are none. -/
def run (i : Invocation) (services : Services) (c : Client) : Result × Client :=
  match Workload.derive? i.pipeline with
  | none => (.ok [], c)
  | some workload =>
    match i.prepare workload c with
    | .error failure => (.error failure, c)
    | .ok setting =>
      let range := i.selection.range i.limits.batches
      i.fetchBatches services setting range.count 0 range.first c

end Invocation

end NodeAttestation
