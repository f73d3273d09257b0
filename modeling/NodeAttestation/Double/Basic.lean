import NodeAttestation.Power

/-!
Double-precision numbers, held as their 64 bits and read in whole steps of the smallest positive
one, so that comparing and rounding are questions about natural numbers.
-/

namespace NodeAttestation

structure Double where
  bits : UInt64
deriving DecidableEq, Inhabited

namespace Double

/-- One in steps of the smallest positive double. -/
def stepsPerOne : Nat := 2 ^ 1074

def signBit : Nat := 2 ^ 63

/-- The magnitude bits of infinity; those above it belong to no number. -/
def infinite : Nat := 2047 * 2 ^ 52

def isNegative (x : Double) : Bool := signBit ≤ x.bits.toNat

/-- The bits without the sign. They grow with the absolute value. -/
def magnitude (x : Double) : Nat := x.bits.toNat % signBit

def isNaN (x : Double) : Bool := infinite < x.magnitude

def isFinite (x : Double) : Bool := x.magnitude < infinite

def ofMagnitude (negative : Bool) (magnitude : Nat) : Double :=
  ⟨UInt64.ofNat (magnitude + if negative then signBit else 0)⟩

def zero : Double := ofMagnitude false 0

def infinity : Double := ofMagnitude false infinite

def nan : Double := ofMagnitude false (infinite + 2 ^ 51)

/-- The absolute value in steps that belongs to magnitude bits below infinity. -/
def stepsOf (magnitude : Nat) : Nat :=
  if magnitude < 2 ^ 52 then magnitude
  else (2 ^ 52 + magnitude % 2 ^ 52) * 2 ^ (magnitude / 2 ^ 52 - 1)

/-- The absolute value of a finite double in steps. -/
def absSteps (x : Double) : Nat := stepsOf x.magnitude

/-- A finite double in steps. -/
def steps (x : Double) : Int := if x.isNegative then -(x.absSteps : Int) else x.absSteps

/-- The nearest natural number to a quotient; of two equally near ones the even one. -/
def roundHalfEven (num den : Nat) : Nat :=
  let quotient := num / den
  let twice := 2 * (num % den)
  if twice < den then quotient
  else if den < twice then quotient + 1
  else quotient + quotient % 2

/-- The magnitude bits of the double nearest to `num / den`; beyond the largest it is infinity. -/
def nearest (num den : Nat) : Nat :=
  let scaled := num * stepsPerOne
  let shift := (scaled / den).log2 - 52
  min infinite (shift * 2 ^ 52 + roundHalfEven scaled (den * 2 ^ shift))

def ofQuotient (num den : Nat) : Double := ofMagnitude false (nearest num den)

def ofNat (n : Nat) : Double := ofQuotient n 1

def neg (x : Double) : Double := ofMagnitude (!x.isNegative) x.magnitude

/-- The rounded product of two finite doubles. -/
def mul (x y : Double) : Double :=
  ofMagnitude (x.isNegative != y.isNegative)
    (nearest (x.absSteps * y.absSteps) (stepsPerOne * stepsPerOne))

/-- The rounded quotient of two finite doubles, the second not zero. -/
def div (x y : Double) : Double :=
  ofMagnitude (x.isNegative != y.isNegative) (nearest x.absSteps y.absSteps)

/-- The smaller of two finite doubles. -/
def min (x y : Double) : Double := if y.steps < x.steps then y else x

/-- The whole part of the absolute value; infinity counts as the number above the largest. -/
def floorAbs (x : Double) : Nat := x.absSteps / stepsPerOne

def isPositive (x : Double) : Bool := x.isFinite && 0 < x.steps

/-- Whether the double lies in the closed interval from zero to one; either zero does. -/
def inUnitInterval (x : Double) : Bool :=
  x.isFinite && 0 ≤ x.steps && x.steps ≤ (stepsPerOne : Int)

/-- The double nearest to a power of ten. -/
def tenToThe (exponent : Nat) : Double := ofNat (10 ^ exponent)

/-- The double nearest to `coefficient` times ten to the `exponent`. -/
def ofDecimal (coefficient : Nat) (exponent : Int) : Double :=
  if 0 ≤ exponent then ofQuotient (coefficient * 10 ^ exponent.toNat) 1
  else ofQuotient coefficient (10 ^ exponent.natAbs)

end Double

end NodeAttestation
