import NodeAttestation.Json.Fault

/-!
The strings of a JSON text. A string that is wanted must spell out characters; of one that is
passed over only the form is checked, so that it may hold half of a surrogate pair.
-/

namespace NodeAttestation.Json

/-- What has been taken from a text and what is left of it. -/
abbrev Taken (α : Type) := α × List Char

abbrev Reader (α : Type) := List Char → Except Fault (Taken α)

/-- Where the reading of a string stands. -/
inductive TextState where
  | plain
  | escape
  /-- Inside `\u`: the first half of a pair, the digits so far and how many are to come. -/
  | unit (high : Option Nat) (value left : Nat)
  /-- After the first half of a surrogate pair. -/
  | paired (high : Nat)
  | pairedEscape (high : Nat)

def hexValue? (c : Char) : Option Nat :=
  if c.isDigit then some (c.toNat - '0'.toNat)
  else if 'a' ≤ c && c ≤ 'f' then some (c.toNat - 'a'.toNat + 10)
  else if 'A' ≤ c && c ≤ 'F' then some (c.toNat - 'A'.toNat + 10)
  else none

def shortEscape? (c : Char) : Option Char :=
  match c with
  | '"' => some '"'
  | '\\' => some '\\'
  | '/' => some '/'
  | 'b' => some '\x08'
  | 'f' => some '\x0c'
  | 'n' => some '\n'
  | 'r' => some '\r'
  | 't' => some '\t'
  | _ => none

def isHighHalf (n : Nat) : Bool := 0xD800 ≤ n && n ≤ 0xDBFF

def isLowHalf (n : Nat) : Bool := 0xDC00 ≤ n && n ≤ 0xDFFF

def utf8Length (text : List Char) : Nat := text.foldr (fun c length => c.utf8Size + length) 0

/-- A character in place of a hexadecimal digit. Four bytes must follow `\u` before they are
looked at. -/
def badDigit (rest : List Char) (left : Nat) : Fault :=
  if utf8Length rest < left then .unfinished else .malformed

/-- What a finished `\u` escape stands for: a character, or the first half of a pair. -/
def closeUnit : Option Nat → Nat → Except Fault (Char ⊕ Nat)
  | none, value =>
    if isLowHalf value then .error .malformed
    else if isHighHalf value then .ok (.inr value)
    else .ok (.inl (Char.ofNat value))
  | some high, value =>
    if isLowHalf value then
      .ok (.inl (Char.ofNat (0x10000 + (high - 0xD800) * 0x400 + (value - 0xDC00))))
    else .error .malformed

/-- Reads up to the closing quote; `done` holds the characters so far, the last first. -/
def readTextFrom : TextState → List Char → Reader (List Char)
  | _, _, [] => .error .unfinished
  | .plain, done, c :: rest =>
    if c == '"' then .ok (done.reverse, rest)
    else if c == '\\' then readTextFrom .escape done rest
    else if c.toNat < 0x20 then .error .malformed
    else readTextFrom .plain (c :: done) rest
  | .escape, done, c :: rest =>
    if c == 'u' then readTextFrom (.unit none 0 4) done rest
    else match shortEscape? c with
      | some c => readTextFrom .plain (c :: done) rest
      | none => .error .malformed
  | .unit high value left, done, c :: rest =>
    match hexValue? c with
    | none => .error (badDigit (c :: rest) left)
    | some digit =>
      let value := 16 * value + digit
      if 1 < left then readTextFrom (.unit high value (left - 1)) done rest
      else match closeUnit high value with
        | .error fault => .error fault
        | .ok (.inl c) => readTextFrom .plain (c :: done) rest
        | .ok (.inr high) => readTextFrom (.paired high) done rest
  | .paired high, done, c :: rest =>
    if c == '\\' then readTextFrom (.pairedEscape high) done rest else .error .malformed
  | .pairedEscape high, done, c :: rest =>
    if c == 'u' then readTextFrom (.unit (some high) 0 4) done rest else .error .malformed

/-- A wanted string, its opening quote being gone. -/
def readText (input : List Char) : Except Fault (Taken String) :=
  match readTextFrom .plain [] input with
  | .ok (chars, rest) => .ok (String.ofList chars, rest)
  | .error fault => .error fault

/-- Where the passing over of a string stands. -/
inductive SkipState where
  | plain
  | escape
  | unit (left : Nat)

def skipTextFrom : SkipState → List Char → Except Fault (List Char)
  | _, [] => .error .unfinished
  | .plain, c :: rest =>
    if c == '"' then .ok rest
    else if c == '\\' then skipTextFrom .escape rest
    else if c.toNat < 0x20 then .error .malformed
    else skipTextFrom .plain rest
  | .escape, c :: rest =>
    if c == 'u' then skipTextFrom (.unit 4) rest
    else if (shortEscape? c).isSome then skipTextFrom .plain rest
    else .error .malformed
  | .unit left, c :: rest =>
    if (hexValue? c).isNone then .error (badDigit (c :: rest) left)
    else if 1 < left then skipTextFrom (.unit (left - 1)) rest
    else skipTextFrom .plain rest

/-- Passes over a string, its opening quote being gone. -/
def skipText (input : List Char) : Except Fault (List Char) := skipTextFrom .plain input

end NodeAttestation.Json
