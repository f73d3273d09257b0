import NodeAttestation.Error
import NodeAttestation.Settings.Basic

/-! Settings as JSON. What a text leaves out keeps its initial value. -/

namespace NodeAttestation

namespace Settings

def fields : List (Json.Field Settings) := [
  .default "environment" (Json.readChoice Environment.choices)
    fun s value => { s with environment := value },
  .default "serviceUrl" Json.readString fun s value => { s with serviceUrl := value },
  .default "prefetchRequestPath" Json.readString fun s value => { s with requestPath := value },
  .default "maxPrefetchedAttestations" (Json.readUInt64 "usize")
    fun s value => { s with attestationsPerRequest := value },
  .default "maxPrefetchBatches" (Json.readUInt64 "usize")
    fun s value => { s with batches := value },
  .default "prewarmAttestationsValiditySecs" (Json.readUInt64 "u64")
    fun s value => { s with validitySeconds := value },
  .default "ignoreCertificateErrors" Json.readBool
    fun s value => { s with ignoreCertificateErrors := value },
  .default "forceOhttp" Json.readBool fun s value => { s with forceRelay := value },
  .option "testOptions" Json.readString fun s value => { s with testOptions := value },
  .option "overrideCellId" Json.readString fun s value => { s with overrideCell := value },
  .option "defaultBundleIdentifier" Json.readString
    fun s value => { s with defaultBundle := value },
  .default "userAgent" Json.readString fun s value => { s with userAgent := value },
  .default "maxFrameLength" (Json.readUInt64 "usize")
    fun s value => { s with maxFrameLength := value },
  .default "maxRateLimitTtlSecs" (Json.readUInt64 "u64")
    fun s value => { s with maxLimitSeconds := value }]

def shape : Json.Shape Settings := ⟨"Configuration", fields, initial, true⟩

/-- Settings as they were written down, if they can be used. -/
def ofJson (text : String) : Except Error Settings :=
  match Json.readDocument shape.read text with
  | .error fault => .error (.json fault)
  | .ok settings =>
    match settings.defect? with
    | some defect => .error (.settings defect.message)
    | none => .ok settings

def load (file : File) : Except Error Settings :=
  match file.readText with
  | .ok text => ofJson text
  | .error error => .error (.access error)

def ofWord (n : UInt64) : Json := .ofNat n.toNat

def toJson (s : Settings) : Json :=
  .object [
    ("environment", .text s.environment.name),
    ("serviceUrl", .text s.serviceUrl),
    ("prefetchRequestPath", .text s.requestPath),
    ("maxPrefetchedAttestations", ofWord s.attestationsPerRequest),
    ("maxPrefetchBatches", ofWord s.batches),
    ("prewarmAttestationsValiditySecs", ofWord s.validitySeconds),
    ("ignoreCertificateErrors", .bool s.ignoreCertificateErrors),
    ("forceOhttp", .bool s.forceRelay),
    ("testOptions", .ofOption s.testOptions),
    ("overrideCellId", .ofOption s.overrideCell),
    ("defaultBundleIdentifier", .ofOption s.defaultBundle),
    ("userAgent", .text s.userAgent),
    ("maxFrameLength", ofWord s.maxFrameLength),
    ("maxRateLimitTtlSecs", ofWord s.maxLimitSeconds)]

end Settings

namespace Overrides

def fields : List (Json.Field Overrides) := [
  .option "maxPrefetchedAttestations" (Json.readUInt64 "usize")
    fun o value => { o with attestationsPerRequest := value },
  .option "maxPrefetchBatches" (Json.readUInt64 "usize")
    fun o value => { o with batches := value },
  .option "prewarmAttestationsValiditySecs" (Json.readUInt64 "u64")
    fun o value => { o with validitySeconds := value }]

def shape : Json.Shape Overrides := ⟨"ServerDrivenConfiguration", fields, .empty, true⟩

def ofJson (text : String) : Except Json.Fault Overrides := Json.readDocument shape.read text

def ofWord? : Option UInt64 → Json
  | none => .null
  | some n => Settings.ofWord n

def toJson (o : Overrides) : Json :=
  .object [
    ("maxPrefetchedAttestations", ofWord? o.attestationsPerRequest),
    ("maxPrefetchBatches", ofWord? o.batches),
    ("prewarmAttestationsValiditySecs", ofWord? o.validitySeconds)]

end Overrides

end NodeAttestation
