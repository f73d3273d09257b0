import NodeAttestation.Power
import NodeAttestation.Text.Blank
import NodeAttestation.Time.Calendar

/-! Time stamps in the manner of RFC 3339: how an instant is written, and what is read as one. -/

namespace NodeAttestation

namespace Stamp

def padded (width n : Nat) : List Char :=
  let digits := Nat.toDigits 10 n
  List.replicate (width - digits.length) '0' ++ digits

/-- Years of four digits stand alone, all others carry their sign. -/
def year (n : Int) : List Char :=
  if 0 ≤ n && n ≤ 9999 then padded 4 n.toNat
  else (if n < 0 then '-' else '+') :: padded 4 n.natAbs

def date (d : Date) : List Char :=
  year d.year ++ '-' :: padded 2 d.month ++ '-' :: padded 2 d.day

/-- The fraction of a second in the fewest groups of three digits that are exact. -/
def fraction (nano : Nat) : List Char :=
  if nano == 0 then []
  else if nano % 1000000 == 0 then '.' :: padded 3 (nano / 1000000)
  else if nano % 1000 == 0 then '.' :: padded 6 (nano / 1000)
  else '.' :: padded 9 nano

/-- A leap second is shown as the sixtieth of its minute. -/
def timeOfDay (t : Instant) : List Char :=
  let leap := if t.nano < 1000000000 then 0 else 1
  let s := t.secondOfDay
  padded 2 (s / 3600) ++ ':' :: padded 2 (s / 60 % 60) ++ ':' :: padded 2 (s % 60 + leap) ++
    fraction (t.nano - leap * 1000000000)

def write (separator : Char) (zone : String) (t : Instant) : String :=
  String.ofList (date t.date ++ separator :: timeOfDay t ++ zone.toList)

end Stamp

namespace Instant

/-- For instance `2023-11-14T22:13:20.500Z`. -/
def stamp (t : Instant) : String := Stamp.write 'T' "Z" t

/-- The stamp with a numeric zone: `2023-11-14T22:13:20.500+00:00`. -/
def stampWithOffset (t : Instant) : String := Stamp.write 'T' "+00:00" t

/-- For instance `2023-11-14 22:13:20.500 UTC`. -/
def describe (t : Instant) : String := Stamp.write ' ' " UTC" t

end Instant

namespace Stamp

/-- Why a text is no time stamp. -/
inductive Fault where
  | endsEarly
  | badCharacter
  | outOfRange
  /-- A date and time at an offset that take it beyond the calendar. -/
  | impossible
  | tooLong
deriving DecidableEq

def Fault.message : Fault → String
  | .endsEarly => "premature end of input"
  | .badCharacter => "input contains invalid characters"
  | .outOfRange => "input is out of range"
  | .impossible => "no possible date and time matching input"
  | .tooLong => "trailing input"

/-- One digit or more, up to a limit. A value beyond 64 bits is out of range. -/
def number (limit : Nat) (text : List Char) : Except Fault (Nat × List Char) :=
  match text with
  | [] => .error .endsEarly
  | c :: _ =>
    if !c.isDigit then .error .badCharacter
    else
      let digits := (text.take limit).takeWhile Char.isDigit
      let value := digits.foldl (fun n c => 10 * n + (c.toNat - '0'.toNat)) 0
      if value < 2 ^ 63 then .ok (value, text.drop digits.length) else .error .outOfRange

def numberWithin (low high : Nat) (text : List Char) : Except Fault (Nat × List Char) := do
  let (value, rest) ← number 2 (Text.skipBlanks text)
  if low ≤ value && value ≤ high then .ok (value, rest) else .error .outOfRange

def literal (wanted : Char) (text : List Char) : Except Fault (List Char) :=
  match Text.skipBlanks text with
  | [] => .error .endsEarly
  | c :: rest => if c == wanted then .ok rest else .error .badCharacter

/-- Four digits at most, any number of them behind a sign. -/
def readYear (text : List Char) : Except Fault (Int × List Char) := do
  let (sign, limit, text) : Int × Nat × List Char := match Text.skipBlanks text with
    | '-' :: rest => (-1, rest.length, rest)
    | '+' :: rest => (1, rest.length, rest)
    | rest => (1, 4, rest)
  let (magnitude, rest) ← number limit text
  let value := sign * magnitude
  if -(2 ^ 31) ≤ value && value < 2 ^ 31 then .ok (value, rest) else .error .outOfRange

/-- The nanoseconds of up to nine digits after a point; further digits are dropped. -/
def readFraction : List Char → Except Fault (Nat × List Char)
  | '.' :: rest => do
    let (value, after) ← number 9 rest
    let places := rest.length - after.length
    .ok (value * 10 ^ (9 - places), after.dropWhile Char.isDigit)
  | text => .ok (0, text)

def digitValue (c : Char) : Nat := c.toNat - '0'.toNat

def isUtc : List Char → Bool
  | a :: b :: c :: _ => a.toLower == 'u' && b.toLower == 't' && c.toLower == 'c'
  | _ => false

/-- Two bytes must be left for two digits. -/
def twoDigits (text : List Char) : Except Fault (Char × Char × List Char) :=
  match text with
  | [] => .error .endsEarly
  | [c] => if c.utf8Size < 2 then .error .endsEarly else .error .badCharacter
  | a :: b :: rest => .ok (a, b, rest)

def readOffsetFrom (sign : Int) (text : List Char) : Except Fault (Int × List Char) := do
  let (a, b, rest) ← twoDigits text
  if !(a.isDigit && b.isDigit) then .error .badCharacter
  else
    let hours := 10 * digitValue a + digitValue b
    let rest := rest.dropWhile fun c => c == ':' || Text.isBlank c
    let (c, d, rest) ← twoDigits rest
    if !(c.isDigit && d.isDigit) then .error .badCharacter
    else if '6' ≤ c then .error .outOfRange
    else
      let minutes := 10 * digitValue c + digitValue d
      .ok (sign * (hours * 3600 + minutes * 60 : Nat), rest)

/-- The offset from UTC in seconds. -/
def readOffset (text : List Char) : Except Fault (Int × List Char) :=
  match text with
  | [] => .error .endsEarly
  | c :: rest =>
    if isUtc text then .ok (0, text.drop 3)
    else if c == 'Z' || c == 'z' then .ok (0, rest)
    else if c == '+' then readOffsetFrom 1 rest
    else if c == '-' || c == '\u2212' then readOffsetFrom (-1) rest
    else .error .badCharacter

/-- The instant of a date and time of day, as if at no offset. Second sixty is a leap second. -/
def local? (date : Date) (hour minute second nano : Nat) : Option Instant :=
  let leap := if second == 60 then 1 else 0
  if date.isValid then
    Instant.ofParts?
      (date.toDays * secondsPerDay + (hour * 3600 + minute * 60 + (second - leap) : Nat))
      (nano + leap * 1000000000)
  else none

/-- The instant that a local one stands for at an offset. -/
def atOffset (wall : Instant) (offset : Int) : Except Fault Instant :=
  if offset.natAbs < 86400 then
    match Instant.ofParts? (wall.second - offset) wall.nano with
    | some t => .ok t
    | none => .error .impossible
  else .error .outOfRange

def readDate (text : List Char) : Except Fault (Date × List Char) := do
  let (year, rest) ← readYear text
  let rest ← literal '-' rest
  let (month, rest) ← numberWithin 1 12 rest
  let rest ← literal '-' rest
  let (day, rest) ← numberWithin 1 31 rest
  .ok (⟨year, month, day⟩, rest)

/-- Blanks may stand before each number, and a number may have fewer digits than it is written
with. -/
def read (text : String) : Except Fault Instant := do
  let (date, rest) ← readDate text.toList
  let rest ← match rest with
    | [] => .error .endsEarly
    | c :: rest =>
      if c == 'T' || c == 't' || c == ' ' then .ok rest else .error .badCharacter
  let (hour, rest) ← numberWithin 0 23 rest
  let rest ← literal ':' rest
  let (minute, rest) ← numberWithin 0 59 rest
  let rest ← literal ':' rest
  let (second, rest) ← numberWithin 0 60 rest
  let (nano, rest) ← readFraction rest
  let (offset, rest) ← readOffset (Text.skipBlanks rest)
  if !(Text.skipBlanks rest).isEmpty then .error .tooLong
  else
    match local? date hour minute second nano with
    | none => .error .outOfRange
    | some wall => atOffset wall offset

end Stamp

end NodeAttestation
