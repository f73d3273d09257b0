import NodeAttestation.Wire.Message

/-!
The fields of a binary message. A field is a key, which holds its number and the form of its
value, and the value. Numbers are written in groups of seven bits, the lowest first.
-/

namespace NodeAttestation.Wire

inductive Form where
  | varint
  | sixtyFourBit
  | lengthDelimited
  | startGroup
  | endGroup
  | thirtyTwoBit
deriving DecidableEq

namespace Form

def code : Form → Nat
  | varint => 0
  | sixtyFourBit => 1
  | lengthDelimited => 2
  | startGroup => 3
  | endGroup => 4
  | thirtyTwoBit => 5

def ofCode? : Nat → Option Form
  | 0 => some varint
  | 1 => some sixtyFourBit
  | 2 => some lengthDelimited
  | 3 => some startGroup
  | 4 => some endGroup
  | 5 => some thirtyTwoBit
  | _ => none

theorem ofCode?_code (form : Form) : ofCode? form.code = some form := by cases form <;> rfl

def name : Form → String
  | varint => "Varint"
  | sixtyFourBit => "SixtyFourBit"
  | lengthDelimited => "LengthDelimited"
  | startGroup => "StartGroup"
  | endGroup => "EndGroup"
  | thirtyTwoBit => "ThirtyTwoBit"

end Form

/-- Why bytes are no message. -/
inductive Reason where
  | badVarint
  | keyTooLarge (key : Nat)
  | unknownForm (code : Nat)
  | fieldZero
  | form (found wanted : Form)
  /-- A value reaches beyond the whole input. -/
  | underflow
  /-- The fields of a message within the message reach beyond its length. -/
  | lengthExceeded
  | notText
  | strayEndGroup
  | tooDeep
deriving DecidableEq

def Reason.message : Reason → String
  | badVarint => "invalid varint"
  | keyTooLarge key => "invalid key value: " ++ toString key
  | unknownForm code => "invalid wire type value: " ++ toString code
  | fieldZero => "invalid tag value: 0"
  | form found wanted =>
    "invalid wire type: " ++ found.name ++ " (expected " ++ wanted.name ++ ")"
  | underflow => "buffer underflow"
  | lengthExceeded => "delimited length exceeded"
  | notText => "invalid string value: data is not UTF-8 encoded"
  | strayEndGroup => "unexpected end group tag"
  | tooDeep => "recursion limit reached"

/-- A reason and the fields it arose in, each with its message, the innermost first. -/
structure Fault where
  path : List (String × String)
  reason : Reason
deriving DecidableEq

namespace Fault

def pathText (fault : Fault) : String :=
  String.join (fault.path.map fun step => step.1 ++ "." ++ step.2 ++ ": ")

def message (fault : Fault) : String :=
  "failed to decode Protobuf message: " ++ fault.pathText ++ fault.reason.message

def within (fault : Fault) (message field : String) : Fault :=
  ⟨fault.path ++ [(message, field)], fault.reason⟩

end Fault

/-! ### Writing -/

/-- The groups of a number that has at most `more + 1` of them. -/
def varintWithin : Nat → Nat → Bytes
  | 0, n => [UInt8.ofNat n]
  | more + 1, n =>
    if n < 128 then [UInt8.ofNat n]
    else UInt8.ofNat (n % 128 + 128) :: varintWithin more (n / 128)

/-- A number of 64 bits takes at most ten groups. -/
def varint (n : Nat) : Bytes := varintWithin 9 n

def key (field : Nat) (form : Form) : Bytes := varint (8 * field + form.code)

def delimited (field : Nat) (content : Bytes) : Bytes :=
  key field .lengthDelimited ++ varint content.length ++ content

def textField (field : Nat) (text : String) : Bytes :=
  if text.isEmpty then [] else delimited field (Bytes.ofText text)

/-- A text that is present is written even when it is empty. -/
def optionalText (field : Nat) : Option String → Bytes
  | none => []
  | some text => delimited field (Bytes.ofText text)

def bytesField (field : Nat) (bytes : Bytes) : Bytes :=
  if bytes.isEmpty then [] else delimited field bytes

def numberField (field n : Nat) : Bytes :=
  if n = 0 then [] else key field .varint ++ varint n

/-- Neither zero is written. -/
def doubleField (field : Nat) (x : Double) : Bytes :=
  if x.magnitude = 0 then []
  else key field .sixtyFourBit ++ Bytes.littleEndian 8 x.bits.toNat

/-! ### Reading -/

/-- What has been taken from the input and what is left of it. -/
abbrev Taken (α : Type) := α × Bytes

/-- A number in groups of seven bits: `place` groups have been read and make up `value`. -/
def readVarintFrom : Nat → Nat → Bytes → Except Reason (Taken Nat)
  | _, _, [] => .error .badVarint
  | place, value, b :: rest =>
    if place = 9 ∧ 1 < b.toNat then .error .badVarint
    else if b.toNat < 128 then .ok (value + b.toNat * 128 ^ place, rest)
    else readVarintFrom (place + 1) (value + (b.toNat - 128) * 128 ^ place) rest

def readVarint (input : Bytes) : Except Reason (Taken Nat) := readVarintFrom 0 0 input

def readKey (input : Bytes) : Except Reason (Taken (Nat × Form)) := do
  let (key, rest) ← readVarint input
  if 2 ^ 32 ≤ key then .error (.keyTooLarge key)
  else match Form.ofCode? (key % 8) with
    | none => .error (.unknownForm (key % 8))
    | some form => if key / 8 = 0 then .error .fieldZero else .ok ((key / 8, form), rest)

def expectForm (found wanted : Form) : Except Reason Unit :=
  if found = wanted then .ok () else .error (.form found wanted)

/-- Takes a number of bytes, which must be there. -/
def takeBytes (count : Nat) (input : Bytes) : Except Reason (Taken Bytes) :=
  if input.length < count then .error .underflow
  else .ok (input.take count, input.drop count)

def readBytes (form : Form) (input : Bytes) : Except Reason (Taken Bytes) := do
  expectForm form .lengthDelimited
  let (length, rest) ← readVarint input
  takeBytes length rest

def readText (form : Form) (input : Bytes) : Except Reason (Taken String) := do
  let (bytes, rest) ← readBytes form input
  match Bytes.toText? bytes with
  | some text => .ok (text, rest)
  | none => .error .notText

/-- The low 32 bits of a number. -/
def readUInt32 (form : Form) (input : Bytes) : Except Reason (Taken UInt32) := do
  expectForm form .varint
  let (n, rest) ← readVarint input
  .ok (UInt32.ofNat n, rest)

def readBool (form : Form) (input : Bytes) : Except Reason (Taken Bool) := do
  expectForm form .varint
  let (n, rest) ← readVarint input
  .ok (n != 0, rest)

def readDouble (form : Form) (input : Bytes) : Except Reason (Taken Double) := do
  expectForm form .sixtyFourBit
  let (bytes, rest) ← takeBytes 8 input
  .ok (⟨UInt64.ofNat (Bytes.ofLittleEndian bytes)⟩, rest)

mutual

/-- Passes over the value of a field nobody asked for. The budget bounds the number of fields
within; the length of the input is enough. -/
def skipWithin : Nat → Nat → Nat → Form → Bytes → Except Reason Bytes
  | 0, _, _, _, _ => .error .tooDeep
  | budget + 1, depth, field, form, input =>
    if depth = 0 then .error .tooDeep
    else match form with
      | .varint => (readVarint input).map (·.2)
      | .sixtyFourBit => (takeBytes 8 input).map (·.2)
      | .thirtyTwoBit => (takeBytes 4 input).map (·.2)
      | .lengthDelimited => do
        let (length, rest) ← readVarint input
        (takeBytes length rest).map (·.2)
      | .startGroup => skipGroupWithin budget depth field input
      | .endGroup => .error .strayEndGroup

/-- The fields of a group up to its end. -/
def skipGroupWithin : Nat → Nat → Nat → Bytes → Except Reason Bytes
  | 0, _, _, _ => .error .tooDeep
  | budget + 1, depth, field, input => do
    let ((inner, form), rest) ← readKey input
    if form = .endGroup then
      if inner = field then .ok rest else .error .strayEndGroup
    else
      let rest ← skipWithin budget (depth - 1) inner form rest
      skipGroupWithin budget depth field rest

end

def skip (depth field : Nat) (form : Form) (input : Bytes) : Except Reason Bytes :=
  skipWithin (2 * input.length + 2) depth field form input

end NodeAttestation.Wire
