import NodeAttestation.Json.Reader

/-!
Records: objects with known members, which may also be written as the array of their values.
Members may stand in any order, unknown ones are passed over, and none may stand twice.
-/

namespace NodeAttestation.Json

/-- A member of a record `σ`: its name, whether it may be left out of an object, and how its value
is put into the record. -/
structure Field (σ : Type) where
  name : String
  optional : Bool
  read : σ → Reader σ

/-- A kind of record. Where every member has a default, an array may end early. -/
structure Shape (σ : Type) where
  name : String
  fields : List (Field σ)
  start : σ
  defaults : Bool

namespace Field

def required {σ α : Type} (name : String) (read : Reader α) (put : σ → α → σ) : Field σ :=
  ⟨name, false, fun record input => (read input).map fun (value, rest) => (put record value, rest)⟩

def default {σ α : Type} (name : String) (read : Reader α) (put : σ → α → σ) : Field σ :=
  ⟨name, true, fun record input => (read input).map fun (value, rest) => (put record value, rest)⟩

/-- A member that may be null or left out. -/
def option {σ α : Type} (name : String) (read : Reader α) (put : σ → Option α → σ) : Field σ :=
  .default name (readOption read) put

end Field

namespace Shape

variable {σ : Type}

/-- The first member that had to be there and was not. -/
def firstMissing? (shape : Shape σ) (seen : List String) : Option String :=
  (shape.fields.find? fun field => !field.optional && !seen.contains field.name).map (·.name)

def readMembers (shape : Shape σ) : Nat → Bool → List String → σ → Reader σ
  | 0, _, _, _, _ => .error .malformed
  | budget + 1, first, seen, record, input => do
    match ← nextName first input with
    | (none, rest) =>
      match shape.firstMissing? seen with
      | some name => .error (.unsuitable (.missing name))
      | none => .ok (record, rest)
    | (some name, rest) =>
      match shape.fields.find? (·.name == name) with
      | none =>
        let rest ← colon rest
        let rest ← skipValue rest
        shape.readMembers budget false seen record rest
      | some field =>
        if seen.contains name then .error (.unsuitable (.repeated name))
        else
          let rest ← colon rest
          let (record, rest) ← field.read record rest
          shape.readMembers budget false (name :: seen) record rest

/-- The end of an array whose items have all been read. -/
def closeArray (record : σ) (input : List Char) : Except Fault (Taken σ) :=
  match skipSpace input with
  | [] => .error .unfinished
  | ']' :: rest => .ok (record, rest)
  | _ => .error .malformed

def readItems (shape : Shape σ) : List (Field σ) → Bool → σ → Reader σ
  | [], _, record, input => closeArray record input
  | field :: fields, first, record, input => do
    match ← nextItem first input with
    | (false, rest) =>
      if shape.defaults then .ok (record, rest)
      else
        let length := shape.fields.length - (fields.length + 1)
        .error (.unsuitable (.tooShort length shape.name shape.fields.length))
    | (true, rest) =>
      let (record, rest) ← field.read record rest
      shape.readItems fields false record rest

def read (shape : Shape σ) (input : List Char) : Except Fault (Taken σ) :=
  match skipSpace input with
  | '\x7b' :: rest => shape.readMembers (rest.length + 1) true [] shape.start rest
  | '[' :: rest => shape.readItems shape.fields true shape.start rest
  | rest => .error (misplaced ("struct " ++ shape.name) rest)

end Shape

end NodeAttestation.Json
