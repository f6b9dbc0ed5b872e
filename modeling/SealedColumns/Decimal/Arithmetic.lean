import SealedColumns.Decimal.Binary64

/-!
Order and arithmetic of floating-point numbers. Sums, products and quotients are
exact until they are rounded once.
-/

namespace SealedColumns.Binary64

def notANumber : Binary64 := ⟨0x7ff8000000000000⟩

/-- The numbers in their order as integers; both zeros are zero. -/
def orderKey (x : Binary64) : Int :=
  if x.negative then -(x.magnitudeBits : Int) else x.magnitudeBits

/-- The order of two numbers, none of them a NaN. -/
def order (x y : Binary64) : Ordering := compare x.orderKey y.orderKey

/-- The exact value of a finite number, as a quotient. -/
def ratio (x : Binary64) : Int × Nat :=
  if x.negative then (-(x.quotient.1 : Int), x.quotient.2)
  else (x.quotient.1, x.quotient.2)

/-- The order of a number that is no NaN and an integer. -/
def orderInt (x : Binary64) (n : Int) : Ordering :=
  if x.isInfinite then if x.negative then .lt else .gt
  else compare x.ratio.1 (n * x.ratio.2)

def signed (negative : Bool) (magnitude : Binary64) : Binary64 :=
  if negative then magnitude.negate else magnitude

def ofRatio (numerator : Int) (denominator : Nat) : Binary64 :=
  signed (numerator < 0) (ofQuotient numerator.natAbs denominator)

def ofInt (n : Int) : Binary64 := ofRatio n 1

/-- The integer nearest to a number towards zero, within 64 bits. -/
def truncate (x : Binary64) : Int :=
  if x.isNaN then 0
  else if x.isInfinite then if x.negative then -(Int.pow 2 63) else Int.pow 2 63 - 1
  else max (-(Int.pow 2 63)) (min (Int.pow 2 63 - 1) (x.ratio.1.tdiv x.ratio.2))

/-- A sum of nothing is zero, and negative only if both numbers are negative zeros. -/
def add (x y : Binary64) : Binary64 :=
  if x.isNaN || y.isNaN then notANumber
  else if x.isInfinite then
    if y.isInfinite && x.negative != y.negative then notANumber else x
  else if y.isInfinite then y
  else if x.isZero && y.isZero then if x.negative then y else x
  else
    let (a, b) := x.ratio
    let (c, d) := y.ratio
    ofRatio (a * d + c * b) (b * d)

def sub (x y : Binary64) : Binary64 := add x y.negate

def infinite (negative : Bool) : Binary64 := signed negative ⟨0x7ff0000000000000⟩

def product (x y : Binary64) : Binary64 :=
  let negative := x.negative != y.negative
  if x.isNaN || y.isNaN then notANumber
  else if x.isInfinite || y.isInfinite then
    if x.isZero || y.isZero then notANumber else infinite negative
  else signed negative (mul x y)

/-- A quotient whose divisor is not zero. -/
def quotientBy (x y : Binary64) : Binary64 :=
  let negative := x.negative != y.negative
  if x.isNaN || y.isNaN || (x.isInfinite && y.isInfinite) then notANumber
  else if x.isInfinite then infinite negative
  else if y.isInfinite then signed negative ⟨0⟩
  else signed negative (div x y)

end SealedColumns.Binary64
