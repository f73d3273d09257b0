import NodeAttestation.Double.Notation
import NodeAttestation.SortedMap

/-! JSON values and their texts, on one line or indented. -/

namespace NodeAttestation

inductive Json where
  | null
  | bool (value : Bool)
  | integer (value : Int)
  | double (value : Double)
  | text (value : String)
  | array (items : List Json)
  | object (members : List (String × Json))
deriving Inhabited

namespace Json

def ofNat (n : Nat) : Json := .integer n

def ofOption : Option String → Json
  | none => .null
  | some value => .text value

def ofTextMap (m : SortedMap String String) : Json :=
  .object (m.entries.map fun entry => (entry.1, .text entry.2))

def hexDigits (width n : Nat) : List Char :=
  let digits := Nat.toDigits 16 n
  List.replicate (width - digits.length) '0' ++ digits

/-- Quotes, backslashes and control characters below the space are escaped and nothing else. -/
def escapeChar (c : Char) : List Char :=
  match c with
  | '"' => ['\\', '"']
  | '\\' => ['\\', '\\']
  | '\x08' => ['\\', 'b']
  | '\x0c' => ['\\', 'f']
  | '\n' => ['\\', 'n']
  | '\r' => ['\\', 'r']
  | '\t' => ['\\', 't']
  | c => if c.toNat < 0x20 then '\\' :: 'u' :: hexDigits 4 c.toNat else [c]

def quoteText (text : String) : List Char :=
  '"' :: text.toList.flatMap escapeChar ++ ['"']

def integerText (n : Int) : List Char :=
  if n < 0 then '-' :: Nat.toDigits 10 n.natAbs else Nat.toDigits 10 n.natAbs

/-- A double that is no number is written as null. -/
def doubleText (x : Double) : List Char := if x.isFinite then x.jsonText else "null".toList

def boolText (b : Bool) : List Char := if b then "true".toList else "false".toList

mutual

def compactChars : Json → List Char
  | .null => "null".toList
  | .bool b => boolText b
  | .integer n => integerText n
  | .double x => doubleText x
  | .text s => quoteText s
  | .array [] => ['[', ']']
  | .array (item :: items) => '[' :: compactChars item ++ compactItems items ++ [']']
  | .object [] => ['\x7b', '\x7d']
  | .object ((name, value) :: members) =>
    '\x7b' :: quoteText name ++ ':' :: compactChars value ++ compactMembers members ++ ['\x7d']

/-- The items after the first. -/
def compactItems : List Json → List Char
  | [] => []
  | item :: items => ',' :: compactChars item ++ compactItems items

/-- The members after the first. -/
def compactMembers : List (String × Json) → List Char
  | [] => []
  | (name, value) :: members =>
    ',' :: quoteText name ++ ':' :: compactChars value ++ compactMembers members

end

def newLine (depth : Nat) : List Char := '\n' :: List.replicate (2 * depth) ' '

mutual

/-- One item or member a line, two spaces for every level. -/
def indentedChars (depth : Nat) : Json → List Char
  | .null => "null".toList
  | .bool b => boolText b
  | .integer n => integerText n
  | .double x => doubleText x
  | .text s => quoteText s
  | .array [] => ['[', ']']
  | .array (item :: items) =>
    '[' :: newLine (depth + 1) ++ indentedChars (depth + 1) item ++
      indentedItems (depth + 1) items ++ newLine depth ++ [']']
  | .object [] => ['\x7b', '\x7d']
  | .object ((name, value) :: members) =>
    '\x7b' :: newLine (depth + 1) ++ quoteText name ++ ':' :: ' ' ::
      indentedChars (depth + 1) value ++ indentedMembers (depth + 1) members ++
      newLine depth ++ ['\x7d']

def indentedItems (depth : Nat) : List Json → List Char
  | [] => []
  | item :: items =>
    ',' :: newLine depth ++ indentedChars depth item ++ indentedItems depth items

def indentedMembers (depth : Nat) : List (String × Json) → List Char
  | [] => []
  | (name, value) :: members =>
    ',' :: newLine depth ++ quoteText name ++ ':' :: ' ' :: indentedChars depth value ++
      indentedMembers depth members

end

def compact (json : Json) : String := String.ofList json.compactChars

def indented (json : Json) : String := String.ofList (json.indentedChars 0)

end Json

end NodeAttestation
