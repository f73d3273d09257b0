import NodeAttestation.Double.Shortest

/-! Two ways of writing a double with its shortest digits, and a way of reading one. -/

namespace NodeAttestation.Double

def zeros (n : Nat) : List Char := List.replicate n '0'

/-- The decimal without an exponent; `whole` follows a number that has no fraction. -/
def Decimal.positional (d : Decimal) (whole : List Char) : List Char :=
  if d.point ≤ 0 then "0.".toList ++ zeros d.point.natAbs ++ d.digits
  else
    let place := d.point.toNat
    if d.digits.length ≤ place then d.digits ++ zeros (place - d.digits.length) ++ whole
    else d.digits.take place ++ '.' :: d.digits.drop place

def signedText (n : Int) : List Char :=
  (if n < 0 then '-' else '+') :: Nat.toDigits 10 n.natAbs

/-- The decimal with one digit before the point and an exponent. -/
def Decimal.scientific (d : Decimal) : List Char :=
  let fraction := d.digits.drop 1
  d.digits.take 1 ++ (if fraction.isEmpty then [] else '.' :: fraction) ++
    'e' :: signedText (d.point - 1)

def signed (x : Double) (text : List Char) : List Char :=
  if x.isNegative then '-' :: text else text

/-- All digits in place and never an exponent: `60`, `-0`, `0.1`, `NaN`, `inf`. -/
def plainText (x : Double) : List Char :=
  if x.isNaN then "NaN".toList
  else if !x.isFinite then x.signed "inf".toList
  else if x.magnitude = 0 then x.signed ['0']
  else x.signed ((x.shortest .up).positional [])

/-- A finite double in a JSON text: positional from a hundred-thousandth to ten to the sixteenth,
with an exponent elsewhere, never looking like an integer. -/
def jsonText (x : Double) : List Char :=
  if x.magnitude = 0 then x.signed "0.0".toList
  else
    let d := x.shortest .even
    if -5 < d.point && d.point ≤ 16 then x.signed (d.positional ".0".toList)
    else x.signed d.scientific

def splitDigits (text : List Char) : List Char × List Char := text.span Char.isDigit

def digitsValue (digits : List Char) : Nat :=
  digits.foldl (fun n c => 10 * n + (c.toNat - '0'.toNat)) 0

/-- A sign and the rest. -/
def splitSign : List Char → Bool × List Char
  | '-' :: rest => (true, rest)
  | '+' :: rest => (false, rest)
  | text => (false, text)

def readExponent : List Char → Option Int
  | [] => some 0
  | mark :: rest =>
    if mark == 'e' || mark == 'E' then
      let (negative, digits) := splitSign rest
      if !digits.isEmpty && digits.all Char.isDigit then
        some (if negative then -(digitsValue digits : Int) else digitsValue digits)
      else none
    else none

/-- The double nearest to a decimal, `NaN`, `inf` or `-inf`. -/
def ofText? (text : String) : Option Double :=
  let (negative, body) := splitSign text.toList
  let sign (x : Double) : Double := if negative then x.neg else x
  if body == "inf".toList then some (sign infinity)
  else if body == "NaN".toList then some (sign nan)
  else
    let (whole, rest) := splitDigits body
    let (fraction, rest) := match rest with
      | '.' :: rest => splitDigits rest
      | rest => ([], rest)
    if whole.isEmpty && fraction.isEmpty then none
    else (readExponent rest).map fun exponent =>
      sign (ofDecimal (digitsValue (whole ++ fraction)) (exponent - fraction.length))

end NodeAttestation.Double
