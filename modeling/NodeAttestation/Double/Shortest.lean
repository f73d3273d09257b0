import NodeAttestation.Double.Basic

/-!
The shortest decimal that reads back as a given double: of the decimals with the fewest digits
that round to it, the nearest.
-/

namespace NodeAttestation.Double

/-- The decimal `0.digits` times ten to the `point`. -/
structure Decimal where
  digits : List Char
  point : Int
deriving DecidableEq

/-- What to do with a double that lies midway between two shortest decimals. -/
inductive Tie where
  | even
  | up
deriving DecidableEq

/-- The place of the decimal point before which the absolute value has its first digit. -/
def pointOf (steps : Nat) : Int :=
  ((Nat.toDigits 10 (steps * 10 ^ 400 / stepsPerOne)).length : Int) - 400

/-- The multiple of ten to the `grid` that is nearest to the absolute value of a double, if a
neighbour of it on this grid reads back. -/
def onGrid? (tie : Tie) (magnitude : Nat) (grid : Int) : Option Nat :=
  let up := 10 ^ (-grid).toNat
  let down := stepsPerOne * 10 ^ grid.toNat
  let value := stepsOf magnitude * up
  let lowest := (stepsOf (magnitude - 1) + stepsOf magnitude) * up
  let highest := (stepsOf magnitude + stepsOf (magnitude + 1)) * up
  let readsBack (multiple : Nat) : Bool :=
    let twice := 2 * multiple * down
    if magnitude % 2 = 0 then lowest ≤ twice && twice ≤ highest
    else lowest < twice && twice < highest
  let below := value / down
  let midway := (2 * below + 1) * down
  match readsBack below, readsBack (below + 1) with
  | true, false => some below
  | false, true => some (below + 1)
  | true, true =>
    if 2 * value < midway then some below
    else if midway < 2 * value then some (below + 1)
    else match tie with
      | .even => some (below + below % 2)
      | .up => some (below + 1)
  | false, false => none

/-- Tries one more digit at a time, seventeen being enough for every double. -/
def shortestFrom (tie : Tie) (magnitude : Nat) (point : Int) : Nat → Nat → Decimal
  | 0, _ => ⟨['0'], point⟩
  | more + 1, count =>
    match onGrid? tie magnitude (point - count) with
    | some multiple =>
      let digits := Nat.toDigits 10 multiple
      ⟨(digits.reverse.dropWhile (· == '0')).reverse, point - count + digits.length⟩
    | none => shortestFrom tie magnitude point more (count + 1)

/-- The shortest decimal of the absolute value of a finite double that is not zero. -/
def shortest (tie : Tie) (x : Double) : Decimal :=
  shortestFrom tie x.magnitude (pointOf x.absSteps) 17 1

end NodeAttestation.Double
