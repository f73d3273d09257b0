import NodeAttestation.Wire.Decode
import NodeAttestation.Wire.Encode

/-!
Frames: each message of a response body follows its length in four bytes, the highest first. A
body is read byte by byte, so that how it is cut into chunks cannot matter.
-/

namespace NodeAttestation

/-- The bytes of a response as they arrive, and the failure that ends them before their end. -/
structure Body where
  chunks : List Bytes
  failure : Option String
deriving DecidableEq, Inhabited

namespace Body

def cutWithin (size : Nat) : Nat → Bytes → List Bytes
  | 0, _ => []
  | budget + 1, bytes =>
    if bytes.isEmpty then [] else bytes.take size :: cutWithin size budget (bytes.drop size)

/-- Bytes in chunks of one size, the last of which may be shorter. -/
def cut (size : Nat) (bytes : Bytes) : List Bytes := cutWithin (max size 1) bytes.length bytes

/-- Bytes in chunks of given sizes and a last one with the rest. -/
def cutAt : List Nat → Bytes → List Bytes
  | [], bytes => [bytes]
  | size :: sizes, bytes => bytes.take size :: cutAt sizes (bytes.drop size)

end Body

namespace Frame

/-- Why a body is no sequence of frames. -/
inductive Fault where
  | oversized
  | truncated
  /-- The body itself failed. -/
  | body (reason : String)
deriving DecidableEq

def Fault.message : Fault → String
  | oversized => "frame size too big"
  | truncated => "bytes remaining on stream"
  | body reason => reason

/-- Where the reading of a body stands. What has been taken lies with its last byte first. -/
inductive State where
  /-- In a length field, of which fewer than four bytes have been taken. -/
  | length (taken : Bytes)
  /-- In a payload, of which some bytes are missing. -/
  | payload (missing : Nat) (taken : Bytes)
  | oversized
deriving DecidableEq

def State.start : State := .length []

/-- Takes one byte; gives out a payload if it is complete. -/
def State.push (maxLength : Nat) : State → UInt8 → Option Bytes × State
  | .length taken, b =>
    if taken.length < 3 then (none, .length (b :: taken))
    else
      let length := Bytes.ofLittleEndian (b :: taken)
      if maxLength < length then (none, .oversized)
      else if length = 0 then (some [], .start)
      else (none, .payload length [])
  | .payload missing taken, b =>
    if missing ≤ 1 then (some (b :: taken).reverse, .start)
    else (none, .payload (missing - 1) (b :: taken))
  | .oversized, _ => (none, .oversized)

/-- The payloads that a chunk completes, and where it leaves the reading. -/
def feed (maxLength : Nat) : State → Bytes → List Bytes × State
  | state, [] => ([], state)
  | state, b :: rest =>
    let (payload, next) := state.push maxLength b
    let (payloads, last) := feed maxLength next rest
    (payload.toList ++ payloads, last)

def feedChunks (maxLength : Nat) : State → List Bytes → List Bytes × State
  | state, [] => ([], state)
  | state, chunk :: chunks =>
    let (payloads, next) := feed maxLength state chunk
    let (more, last) := feedChunks maxLength next chunks
    (payloads ++ more, last)

/-- What is wrong at the end of a body. Only bytes that belong to no frame are noticed: after a
length field of which no payload follows the body counts as complete. -/
def State.fault? (failure : Option String) : State → Option Fault
  | .oversized => some .oversized
  | .length taken =>
    match failure with
    | some reason => some (.body reason)
    | none => if taken.isEmpty then none else some .truncated
  | .payload _ taken =>
    match failure with
    | some reason => some (.body reason)
    | none => if taken.isEmpty then none else some .truncated

/-- The payloads of a body and the fault that ends them, if one does. -/
def payloads (maxLength : Nat) (body : Body) : List Bytes × Option Fault :=
  let (payloads, last) := feedChunks maxLength .start body.chunks
  (payloads, last.fault? body.failure)

/-- A message with its length before it. -/
def encode (payload : Bytes) : Bytes := Bytes.bigEndian 4 payload.length ++ payload

/-- What a body holds at one place. -/
inductive Item (α : Type) where
  | message (value : α)
  | undecodable (fault : Wire.Fault)
  | broken (fault : Fault)
deriving DecidableEq

def Item.ofDecoded {α : Type} : Except Wire.Fault α → Item α
  | .ok value => .message value
  | .error fault => .undecodable fault

/-- The messages of a body. One that cannot be decoded does not end the others; a broken frame
does. -/
def items {α : Type} (decode : Bytes → Except Wire.Fault α) (maxLength : Nat) (body : Body) :
    List (Item α) :=
  let (payloads, fault) := payloads maxLength body
  payloads.map (.ofDecoded ∘ decode) ++ (fault.map Item.broken).toList

end Frame

end NodeAttestation
