import NodeAttestation.Json.Text

/-!
The numbers of a JSON text. An integer of 64 bits is exact. Any other number is scaled: as many
leading digits as fit 64 bits are rounded to a double, which is multiplied or divided by a power
of ten. The result need not be the double nearest to the decimal.
-/

namespace NodeAttestation.Json

/-- The digits of a number as they stand. -/
structure Numeral where
  negative : Bool
  whole : List Char
  fraction : Option (List Char)
  exponent : Option Int

inductive Number where
  | integer (value : Int)
  | double (value : Double)
deriving DecidableEq

/-- The text ends in a number, or goes on in a way no number does. -/
inductive NumeralFault where
  | endsEarly
  | badCharacter

abbrev Digits := List Char

def splitDigits (input : List Char) : Digits × List Char :=
  (input.takeWhile Char.isDigit, input.dropWhile Char.isDigit)

/-- One digit or more. -/
def someDigits (input : List Char) : Except NumeralFault (Digits × List Char) :=
  match input with
  | [] => .error .endsEarly
  | c :: _ => if c.isDigit then .ok (splitDigits input) else .error .badCharacter

def wholePart (input : List Char) : Except NumeralFault (Digits × List Char) := do
  let (digits, rest) ← someDigits input
  match digits with
  | '0' :: _ :: _ => .error .badCharacter
  | _ => .ok (digits, rest)

def fractionPart : List Char → Except NumeralFault (Option Digits × List Char)
  | '.' :: rest => do
    let (digits, rest) ← someDigits rest
    .ok (some digits, rest)
  | input => .ok (none, input)

def digitsValue (digits : Digits) : Nat :=
  digits.foldl (fun n c => 10 * n + (c.toNat - '0'.toNat)) 0

def exponentPart (input : List Char) : Except NumeralFault (Option Int × List Char) :=
  match input with
  | [] => .ok (none, [])
  | mark :: rest =>
    if mark == 'e' || mark == 'E' then do
      let (negative, rest) := match rest with
        | '-' :: rest => (true, rest)
        | '+' :: rest => (false, rest)
        | rest => (false, rest)
      let (digits, rest) ← someDigits rest
      let value : Int := digitsValue digits
      .ok (some (if negative then -value else value), rest)
    else .ok (none, input)

/-- A number whose sign has been read. -/
def numeral (negative : Bool) (input : List Char) :
    Except NumeralFault (Numeral × List Char) := do
  let (whole, rest) ← wholePart input
  let (fraction, rest) ← fractionPart rest
  let (exponent, rest) ← exponentPart rest
  .ok (⟨negative, whole, fraction, exponent⟩, rest)

/-- Takes digits up to the first that would not fit 64 bits; returns what is left as well. -/
def absorb (significand : Nat) : Digits → Nat × Digits
  | [] => (significand, [])
  | c :: rest =>
    let next := 10 * significand + (c.toNat - '0'.toNat)
    if next < 2 ^ 64 then absorb next rest else (significand, c :: rest)

/-- Scales by a power of ten. A power beyond the table is reached in steps of 308 downwards and
is out of range upwards. -/
def scale (x : Double) (exponent : Int) : Option Double :=
  if exponent.natAbs ≤ 308 then
    if 0 ≤ exponent then
      let scaled := x.mul (.tenToThe exponent.toNat)
      if scaled.isFinite then some scaled else none
    else some (x.div (.tenToThe exponent.natAbs))
  else if x.magnitude = 0 then some x
  else if 0 ≤ exponent then none
  else scale (x.div (.tenToThe 308)) (exponent + 308)
termination_by exponent.natAbs
decreasing_by omega

/-- The value of a number, unless it is beyond the doubles. -/
def Numeral.value? (n : Numeral) : Option Number :=
  let (significand, dropped) := absorb 0 n.whole
  let sign (x : Double) : Double := if n.negative then x.neg else x
  match n.fraction, n.exponent, dropped with
  | none, none, [] =>
    if !n.negative then some (.integer significand)
    else if significand = 0 || 2 ^ 63 < significand then
      some (.double (Double.ofNat significand).neg)
    else some (.integer (-significand))
  | fraction, exponent, dropped =>
    let fraction := fraction.getD []
    let (significand, unused) := absorb significand fraction
    let places : Int := (fraction.length : Int) - unused.length
    (scale (.ofNat significand) (dropped.length - places + exponent.getD 0)).map
      fun x => .double (sign x)

/-- A wanted number. -/
def readNumber (negative : Bool) (input : List Char) : Except Fault (Taken Number) :=
  match numeral negative input with
  | .error .endsEarly => .error .unfinished
  | .error .badCharacter => .error .malformed
  | .ok (n, rest) =>
    match n.value? with
    | some value => .ok (value, rest)
    | none => .error .malformed

/-- Passes over a number, whatever its size; one that is cut short is not a number. -/
def skipNumber (input : List Char) : Except Fault (List Char) :=
  match numeral false input with
  | .error _ => .error .malformed
  | .ok (_, rest) => .ok rest

end NodeAttestation.Json
