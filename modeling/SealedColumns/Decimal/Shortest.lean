import SealedColumns.Decimal.Binary64

/-!
The shortest decimal that reads back as a given floating-point number. All
decimals between the halfway points to the neighbouring numbers read back, the
halfway points themselves if the significand is even. Of the grids of 1, 2, ...
17 digits the first that has a point there decides, by the nearest such point.
-/

namespace SealedColumns

/-- The number `coefficient * 10 ^ exponent`. -/
structure Decimal where
  coefficient : Nat
  exponent : Int
  deriving DecidableEq

namespace Decimal

inductive Tie where
  | up
  | even
  deriving DecidableEq

/-- A number with the bounds of what reads back as it, over one denominator. -/
structure Interval where
  low : Nat
  value : Nat
  high : Nat
  denominator : Nat
  closed : Bool

/-- Below a power of two the spacing is halved, so the lower halfway point is nearer. -/
def Interval.around (x : Binary64) : Interval :=
  let narrow := x.fraction = 0 ∧ 1 < x.exponentField
  let (unit, denominator) := Binary64.scaled 1 4 (-x.exponent)
  { low := (4 * x.significand - (if narrow then 1 else 2)) * unit
    value := 4 * x.significand * unit
    high := (4 * x.significand + 2) * unit
    denominator
    closed := x.significand % 2 = 0 }

/-- How many digits stand before the point; zero or less for a number below one tenth. -/
def Interval.magnitude (interval : Interval) : Int :=
  if interval.denominator ≤ interval.value then
    (Nat.toDigits 10 (interval.value / interval.denominator)).length
  else 1 - ((Nat.toDigits 10 (interval.denominator / interval.value)).length : Int)

/-- Whether the grid point lies between the bounds. -/
def Interval.admits (interval : Interval) (top bottom : Nat) : Bool :=
  if interval.closed then
    interval.low * bottom ≤ top * interval.denominator
      && top * interval.denominator ≤ interval.high * bottom
  else
    interval.low * bottom < top * interval.denominator
      && top * interval.denominator < interval.high * bottom

/-- The grid point of that spacing nearest to the value, if one reads back. -/
def Interval.nearest? (interval : Interval) (tie : Tie) (spacing : Int) : Option Decimal :=
  let (up, down) : Nat × Nat :=
    if 0 ≤ spacing then (Nat.pow 10 spacing.toNat, 1) else (1, Nat.pow 10 (-spacing).toNat)
  let top := interval.value * down
  let bottom := interval.denominator * up
  let below := top / bottom
  let rest := 2 * (top % bottom)
  let belowAdmitted := interval.admits (below * up) down
  let aboveAdmitted := interval.admits ((below + 1) * up) down
  let nearerBelow := rest < bottom ∨ (rest = bottom ∧ tie = .even ∧ below % 2 = 0)
  if belowAdmitted && (nearerBelow || !aboveAdmitted) then some ⟨below, spacing⟩
  else if aboveAdmitted then some ⟨below + 1, spacing⟩
  else none

def Interval.firstGrid (interval : Interval) (tie : Tie) (magnitude : Int) :
    List Nat → Decimal
  | [] => ⟨0, 0⟩
  | digits :: more =>
      match interval.nearest? tie (magnitude - digits) with
      | some found => found
      | none => interval.firstGrid tie magnitude more

/-- Moves trailing zeros of the coefficient into the exponent; `room` bounds their number. -/
def trimZeros (room : Nat) (d : Decimal) : Decimal :=
  match room with
  | 0 => d
  | room + 1 =>
      if d.coefficient ≠ 0 ∧ d.coefficient % 10 = 0 then
        trimZeros room ⟨d.coefficient / 10, d.exponent + 1⟩
      else d

/-- The shortest decimal that reads back as the magnitude of a finite number. -/
def shortest (tie : Tie) (x : Binary64) : Decimal :=
  if x.isZero then ⟨0, 0⟩
  else
    let interval := Interval.around x
    trimZeros 17 (interval.firstGrid tie interval.magnitude (List.range' 1 17))

end Decimal

end SealedColumns
