import NodeAttestation.Json.Number

/-!
Reading the values of a JSON text from left to right. The first thing that is wrong decides, be
it the form of the text or the kind of a value; what nobody asked for is passed over.
-/

namespace NodeAttestation.Json

def isSpace (c : Char) : Bool := c == ' ' || c == '\n' || c == '\t' || c == '\r'

def skipSpace (input : List Char) : List Char := input.dropWhile isSpace

/-- The rest of a keyword. -/
def keyword : List Char → List Char → Except Fault (List Char)
  | [], input => .ok input
  | _ :: _, [] => .error .unfinished
  | w :: word, c :: rest => if c == w then keyword word rest else .error .malformed

/-- The colon after a name. -/
def colon (input : List Char) : Except Fault (List Char) :=
  match skipSpace input with
  | [] => .error .unfinished
  | ':' :: rest => .ok rest
  | _ => .error .malformed

/-- The next name of an object, or nothing at its closing brace. -/
def nextName (first : Bool) (input : List Char) : Except Fault (Taken (Option String)) :=
  match skipSpace input with
  | [] => .error .unfinished
  | '\x7d' :: rest => .ok (none, rest)
  | '"' :: rest =>
    if first then (readText rest).map fun (name, rest) => (some name, rest)
    else .error .malformed
  | ',' :: rest =>
    if first then .error .malformed
    else match skipSpace rest with
      | [] => .error .unfinished
      | '"' :: rest => (readText rest).map fun (name, rest) => (some name, rest)
      | _ => .error .malformed
  | _ => .error .malformed

/-- Whether an array goes on; its closing bracket is taken. -/
def nextItem (first : Bool) (input : List Char) : Except Fault (Taken Bool) :=
  match skipSpace input with
  | [] => .error .unfinished
  | ']' :: rest => .ok (false, rest)
  | ',' :: rest =>
    if first then .ok (true, ',' :: rest)
    else match skipSpace rest with
      | [] => .error .unfinished
      | ']' :: _ => .error .malformed
      | rest => .ok (true, rest)
  | rest => if first then .ok (true, rest) else .error .malformed

/-! ### Passing over -/

/-- Whether an object goes on; its closing brace is taken, and so is the name. -/
def skipName (first : Bool) (input : List Char) : Except Fault (Taken Bool) :=
  match skipSpace input with
  | [] => .error .unfinished
  | '\x7d' :: rest => .ok (false, rest)
  | '"' :: rest =>
    if first then (skipText rest).map (true, ·) else .error .malformed
  | ',' :: rest =>
    if first then .error .malformed
    else match skipSpace rest with
      | [] => .error .unfinished
      | '"' :: rest => (skipText rest).map (true, ·)
      | _ => .error .malformed
  | _ => .error .malformed

mutual

/-- Passes over a value. The budget bounds the number of values, names and marks; the length of
the text is enough. -/
def skipValueWithin : Nat → List Char → Except Fault (List Char)
  | 0, _ => .error .malformed
  | budget + 1, input =>
    match skipSpace input with
    | [] => .error .unfinished
    | 'n' :: rest => keyword "ull".toList rest
    | 't' :: rest => keyword "rue".toList rest
    | 'f' :: rest => keyword "alse".toList rest
    | '-' :: rest => skipNumber rest
    | '"' :: rest => skipText rest
    | '[' :: rest => skipItemsWithin budget true rest
    | '\x7b' :: rest => skipMembersWithin budget true rest
    | c :: rest => if c.isDigit then skipNumber (c :: rest) else .error .malformed

def skipItemsWithin : Nat → Bool → List Char → Except Fault (List Char)
  | 0, _, _ => .error .malformed
  | budget + 1, first, input =>
    match nextItem first input with
    | .error fault => .error fault
    | .ok (false, rest) => .ok rest
    | .ok (true, rest) =>
      match skipValueWithin budget rest with
      | .error fault => .error fault
      | .ok rest => skipItemsWithin budget false rest

def skipMembersWithin : Nat → Bool → List Char → Except Fault (List Char)
  | 0, _, _ => .error .malformed
  | budget + 1, first, input =>
    match skipName first input with
    | .error fault => .error fault
    | .ok (false, rest) => .ok rest
    | .ok (true, rest) =>
      match colon rest with
      | .error fault => .error fault
      | .ok rest =>
        match skipValueWithin budget rest with
        | .error fault => .error fault
        | .ok rest => skipMembersWithin budget false rest

end

def skipValue (input : List Char) : Except Fault (List Char) :=
  skipValueWithin (2 * input.length + 2) input

/-! ### Wanted values -/

def Number.found : Number → Found
  | .integer n => .integer n
  | .double x => .double x

/-- The fault of a text that holds something else than what was wanted. -/
def misplaced (wanted : String) (input : List Char) : Fault :=
  let unlessCut (found : Found) : Except Fault (List Char) → Fault
    | .ok _ => .unsuitable (.kind found wanted)
    | .error fault => fault
  let number : Except Fault (Taken Number) → Fault
    | .ok (n, _) => .unsuitable (.kind n.found wanted)
    | .error fault => fault
  match input with
  | [] => .unfinished
  | 'n' :: rest => unlessCut .null (keyword "ull".toList rest)
  | 't' :: rest => unlessCut (.bool true) (keyword "rue".toList rest)
  | 'f' :: rest => unlessCut (.bool false) (keyword "alse".toList rest)
  | '-' :: rest => number (readNumber true rest)
  | '"' :: rest =>
    match readText rest with
    | .ok (value, _) => .unsuitable (.kind (.text value) wanted)
    | .error fault => fault
  | '[' :: _ => .unsuitable (.kind .array wanted)
  | '\x7b' :: _ => .unsuitable (.kind .object wanted)
  | c :: rest => if c.isDigit then number (readNumber false (c :: rest)) else .malformed

/-- A string that is wanted under a given name. -/
def readTextAs (wanted : String) (input : List Char) : Except Fault (Taken String) :=
  match skipSpace input with
  | '"' :: rest => readText rest
  | rest => .error (misplaced wanted rest)

def readString (input : List Char) : Except Fault (Taken String) := readTextAs "a string" input

def readBool (input : List Char) : Except Fault (Taken Bool) :=
  match skipSpace input with
  | 't' :: rest => (keyword "rue".toList rest).map (true, ·)
  | 'f' :: rest => (keyword "alse".toList rest).map (false, ·)
  | rest => .error (misplaced "a boolean" rest)

def readNumberAs (wanted : String) (input : List Char) : Except Fault (Taken Number) :=
  match skipSpace input with
  | '-' :: rest => readNumber true rest
  | c :: rest =>
    if c.isDigit then readNumber false (c :: rest) else .error (misplaced wanted (c :: rest))
  | [] => .error .unfinished

/-- A natural number below a bound. -/
def readBelow (bound : Nat) (wanted : String) (input : List Char) : Except Fault (Taken Nat) := do
  let (number, rest) ← readNumberAs wanted input
  match number with
  | .integer n =>
    if 0 ≤ n && n < bound then .ok (n.toNat, rest)
    else .error (.unsuitable (.range n wanted))
  | .double x => .error (.unsuitable (.kind (.double x) wanted))

def readUInt32 (input : List Char) : Except Fault (Taken UInt32) :=
  (readBelow (2 ^ 32) "u32" input).map fun (n, rest) => (UInt32.ofNat n, rest)

/-- An unsigned number of 64 bits, wanted under a given name. -/
def readUInt64 (wanted : String) (input : List Char) : Except Fault (Taken UInt64) :=
  (readBelow (2 ^ 64) wanted input).map fun (n, rest) => (UInt64.ofNat n, rest)

def Number.toDouble : Number → Double
  | .integer n => if n < 0 then (Double.ofNat n.natAbs).neg else Double.ofNat n.natAbs
  | .double x => x

def readDouble (input : List Char) : Except Fault (Taken Double) :=
  (readNumberAs "f64" input).map fun (number, rest) => (number.toDouble, rest)

def readStamp (input : List Char) : Except Fault (Taken Instant) := do
  let (stamp, rest) ← readTextAs "an RFC 3339 formatted date and time string" input
  match Stamp.read stamp with
  | .ok t => .ok (t, rest)
  | .error fault => .error (.unsuitable (.stamp fault))

/-- A value or null. -/
def readOption {α : Type} (read : Reader α) (input : List Char) :
    Except Fault (Taken (Option α)) :=
  match skipSpace input with
  | 'n' :: rest => (keyword "ull".toList rest).map (none, ·)
  | rest => (read rest).map fun (value, rest) => (some value, rest)

/-- One of some names. -/
def chosen {α : Type} (choices : List (String × α)) (name : String) : Except Fault α :=
  match choices.find? (·.1 == name) with
  | some choice => .ok choice.2
  | none => .error (.unsuitable (.unknownName name (choices.map (·.1))))

/-- One of some names as a string, or as the only name of an object with the value null. -/
def readChoice {α : Type} (choices : List (String × α)) (input : List Char) :
    Except Fault (Taken α) :=
  match skipSpace input with
  | [] => .error .unfinished
  | '"' :: rest => do
    let (name, rest) ← readText rest
    let choice ← chosen choices name
    .ok (choice, rest)
  | '\x7b' :: rest => do
    match ← nextName true rest with
    | (none, _) => .error .malformed
    | (some name, rest) =>
      let choice ← chosen choices name
      let rest ← colon rest
      let rest ← match skipSpace rest with
        | 'n' :: rest => keyword "ull".toList rest
        | rest => .error (misplaced "unit" rest)
      match skipSpace rest with
      | [] => .error .unfinished
      | '\x7d' :: rest => .ok (choice, rest)
      | _ => .error .malformed
  | _ => .error .malformed

def readTextMapFrom :
    Nat → Bool → SortedMap String String → Reader (SortedMap String String)
  | 0, _, _, _ => .error .malformed
  | budget + 1, first, m, input => do
    match ← nextName first input with
    | (none, rest) => .ok (m, rest)
    | (some name, rest) =>
      let rest ← colon rest
      let (value, rest) ← readString rest
      readTextMapFrom budget false (m.insert name value) rest

/-- An object of strings; the last of two members with one name counts. -/
def readTextMap (input : List Char) : Except Fault (Taken (SortedMap String String)) :=
  match skipSpace input with
  | '\x7b' :: rest => readTextMapFrom (rest.length + 1) true .empty rest
  | rest => .error (misplaced "a map" rest)

def readListFrom {α : Type} (read : Reader α) :
    Nat → Bool → List α → Reader (List α)
  | 0, _, _, _ => .error .malformed
  | budget + 1, first, done, input => do
    match ← nextItem first input with
    | (false, rest) => .ok (done.reverse, rest)
    | (true, rest) =>
      let (item, rest) ← read rest
      readListFrom read budget false (item :: done) rest

def readList {α : Type} (read : Reader α) (input : List Char) :
    Except Fault (Taken (List α)) :=
  match skipSpace input with
  | '[' :: rest => readListFrom read (rest.length + 1) true [] rest
  | rest => .error (misplaced "a sequence" rest)

/-- A whole text: one value with space around it. -/
def readDocument {α : Type} (read : Reader α) (text : String) : Except Fault α := do
  let (value, rest) ← read text.toList
  if (skipSpace rest).isEmpty then .ok value else .error .malformed

end NodeAttestation.Json
