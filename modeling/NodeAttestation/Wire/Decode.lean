import NodeAttestation.Wire.Field

/-!
Messages from bytes. Fields may stand in any order and unknown ones are passed over. The last of
several scalars counts, messages of one field are merged, and each message within a message or
group passed over uses up one level of depth.
-/

namespace NodeAttestation

namespace Wire

/-- Puts the value of a field into a message. -/
abbrev Merge (α : Type) := Nat → Form → α → Bytes → Except Fault (Taken α)

/-- A reason that belongs to the message at hand and to none of its fields. -/
def unplaced {α : Type} : Except Reason α → Except Fault α
  | .ok value => .ok value
  | .error reason => .error ⟨[], reason⟩

/-- Takes in fields until no more than `stop` bytes are left. The budget bounds the number of
fields; the length of the input is enough. -/
def mergeWithin {α : Type} (merge : Merge α) : Nat → Nat → α → Bytes → Except Fault (Taken α)
  | 0, _, value, rest => .ok (value, rest)
  | budget + 1, stop, value, rest =>
    if rest.length ≤ stop then .ok (value, rest)
    else do
      let ((field, form), rest) ← unplaced (readKey rest)
      let (value, rest) ← merge field form value rest
      mergeWithin merge budget stop value rest

/-- Takes in a message that its length precedes. -/
def mergeDelimited {α : Type} (merge : Merge α) (value : α) (input : Bytes) :
    Except Fault (Taken α) := do
  let (length, rest) ← unplaced (readVarint input)
  if rest.length < length then .error ⟨[], .underflow⟩
  else
    let stop := rest.length - length
    let (value, rest) ← mergeWithin merge rest.length stop value rest
    if rest.length = stop then .ok (value, rest) else .error ⟨[], .lengthExceeded⟩

/-- Takes in a message within a message. -/
def mergeMessage {α : Type} (merge : Nat → Merge α) (depth : Nat) (form : Form) (value : α)
    (input : Bytes) : Except Fault (Taken α) := do
  unplaced (expectForm form .lengthDelimited)
  if depth = 0 then .error ⟨[], .tooDeep⟩
  else mergeDelimited (merge (depth - 1)) value input

def skipField {α : Type} (depth field : Nat) (form : Form) (value : α) (input : Bytes) :
    Except Fault (Taken α) :=
  (unplaced (skip depth field form input)).map fun rest => (value, rest)

/-- Puts what has been read into a message; a failure belongs to the field. -/
def place {α β : Type} (message field : String) (read : Except Fault (Taken β)) (put : β → α) :
    Except Fault (Taken α) :=
  match read with
  | .ok (value, rest) => .ok (put value, rest)
  | .error fault => .error (fault.within message field)

def placeScalar {α β : Type} (message field : String) (read : Except Reason (Taken β))
    (put : β → α) : Except Fault (Taken α) :=
  place message field (unplaced read) put

/-- How many messages and groups may be nested. -/
def maxDepth : Nat := 100

def decode {α : Type} (merge : Nat → Merge α) (start : α) (input : Bytes) : Except Fault α :=
  (mergeWithin (merge maxDepth) input.length 0 start input).map (·.1)

end Wire

open Wire

namespace Attestation

def merge (depth : Nat) : Merge Attestation := fun field form a input =>
  match field with
  | 1 => placeScalar "Attestation" "node_identifier" (readText form input)
      fun value => { a with node := value }
  | 2 => placeScalar "Attestation" "attestation_bundle" (readBytes form input)
      fun value => { a with bundle := value }
  | 3 => placeScalar "Attestation" "cloudos_version" (readText form input)
      fun value => { a with osVersion := value }
  | 4 => placeScalar "Attestation" "cloudos_release_type" (readText form input)
      fun value => { a with releaseType := value }
  | 5 => placeScalar "Attestation" "unvalidated_cell_id" (readText form input)
      fun value => { a with unvalidatedCell := some value }
  | 6 => placeScalar "Attestation" "ensemble_id" (readText form input)
      fun value => { a with ensemble := some value }
  | _ => skipField depth field form a input

def decode (input : Bytes) : Except Fault Attestation := Wire.decode merge .empty input

end Attestation

namespace PushedLimit

def mergeTag (depth : Nat) : Merge (String × String) := fun field form tag input =>
  match field with
  | 1 => (unplaced (readText form input)).map fun (value, rest) => ((value, tag.2), rest)
  | 2 => (unplaced (readText form input)).map fun (value, rest) => ((tag.1, value), rest)
  | _ => skipField depth field form tag input

/-- A tag is read as a message whatever form its key announces. -/
def readTag (depth : Nat) (input : Bytes) : Except Fault (Taken (String × String)) :=
  if depth = 0 then .error ⟨[], .tooDeep⟩
  else mergeDelimited (mergeTag (depth - 1)) ("", "") input

def merge (depth : Nat) : Merge PushedLimit := fun field form l input =>
  match field with
  | 1 => placeScalar "RateLimitConfiguration" "bundle_identifier" (readText form input)
      fun value => { l with bundle := some value }
  | 2 => placeScalar "RateLimitConfiguration" "feature_identifier" (readText form input)
      fun value => { l with feature := some value }
  | 3 => placeScalar "RateLimitConfiguration" "workload_type" (readText form input)
      fun value => { l with workloadType := some value }
  | 4 => place "RateLimitConfiguration" "workload_tags" (readTag depth input)
      fun tag => { l with workloadTags := l.workloadTags.insert tag.1 tag.2 }
  | 5 => placeScalar "RateLimitConfiguration" "request_count" (readUInt32 form input)
      fun value => { l with requestCount := value }
  | 6 => placeScalar "RateLimitConfiguration" "duration_seconds" (readDouble form input)
      fun value => { l with windowSeconds := value }
  | 7 => placeScalar "RateLimitConfiguration" "ttl_seconds" (readDouble form input)
      fun value => { l with lifetimeSeconds := value }
  | 8 => placeScalar "RateLimitConfiguration" "jitter_rate" (readDouble form input)
      fun value => { l with jitter := value }
  | _ => skipField depth field form l input

/-- The entries so far, in the order they were read. -/
def mergeList (depth : Nat) : Merge (List PushedLimit) := fun field form entries input =>
  match field with
  | 1 => place "RateLimitConfigurationList" "rate_limit_configuration"
      (mergeMessage merge depth form .empty input) fun entry => entries ++ [entry]
  | _ => skipField depth field form entries input

def decodeList (input : Bytes) : Except Fault (List PushedLimit) :=
  Wire.decode mergeList [] input

end PushedLimit

namespace Response

def attestationOr : Response → Attestation
  | attestation a => a
  | _ => .empty

def limitsOr : Response → List PushedLimit
  | limits entries => entries
  | _ => []

/-- The same alternative again is merged, the other one replaces what was there. -/
def merge (depth : Nat) : Merge Response := fun field form r input =>
  match field with
  | 1 => place "PrefetchResponse" "r#type"
      (mergeMessage Attestation.merge depth form r.attestationOr input) .attestation
  | 2 => place "PrefetchResponse" "r#type"
      (mergeMessage PushedLimit.mergeList depth form r.limitsOr input) .limits
  | _ => skipField depth field form r input

def decode (input : Bytes) : Except Fault Response := Wire.decode merge .empty input

end Response

namespace AttestationRequest

def mergeStreaming (depth : Nat) : Merge Bool := fun field form streaming input =>
  match field with
  | 1 => placeScalar "Capabilities" "attestation_streaming" (readBool form input) id
  | _ => skipField depth field form streaming input

def merge (depth : Nat) : Merge AttestationRequest := fun field form r input =>
  match field with
  | 1 => place "PrefetchRequest" "capabilities"
      (mergeMessage mergeStreaming depth form (r.streaming.getD false) input)
      fun value => { r with streaming := some value }
  | 2 => placeScalar "PrefetchRequest" "client_requested_attestation_count"
      (readUInt32 form input) fun value => { r with count := value }
  | _ => skipField depth field form r input

def decode (input : Bytes) : Except Fault AttestationRequest := Wire.decode merge ⟨none, 0⟩ input

end AttestationRequest

end NodeAttestation
