/-!
Floating-point numbers of 64 bits, kept as their bits. A finite one stands for
`significand * 2 ^ exponent` up to its sign; comparison and rounding are exact
integer arithmetic on that pair.
-/

namespace SealedColumns

structure Binary64 where
  bits : UInt64
  deriving DecidableEq, Inhabited

namespace Binary64

def negative (x : Binary64) : Bool := Nat.pow 2 63 ≤ x.bits.toNat

def magnitudeBits (x : Binary64) : Nat := x.bits.toNat % Nat.pow 2 63

def exponentField (x : Binary64) : Nat := x.magnitudeBits / Nat.pow 2 52

def fraction (x : Binary64) : Nat := x.magnitudeBits % Nat.pow 2 52

def isNaN (x : Binary64) : Bool := x.exponentField == 2047 && x.fraction != 0

def isInfinite (x : Binary64) : Bool := x.exponentField == 2047 && x.fraction == 0

def isZero (x : Binary64) : Bool := x.magnitudeBits == 0

def significand (x : Binary64) : Nat :=
  if x.exponentField = 0 then x.fraction else Nat.pow 2 52 + x.fraction

/-- The exponent of the significand's last bit. -/
def exponent (x : Binary64) : Int :=
  if x.exponentField = 0 then -1074 else (x.exponentField : Int) - 1075

/-- Equality of numbers: a NaN equals nothing and the two zeros are equal. -/
def numEq (x y : Binary64) : Bool :=
  !x.isNaN && !y.isNaN && (x.bits == y.bits || (x.isZero && y.isZero))

/-- Whether the number is that integer, exactly. -/
def equalsInt (x : Binary64) (n : Int) : Bool :=
  if x.exponentField = 2047 then false
  else
    let signed : Int := if x.negative then -(x.significand : Int) else x.significand
    if 0 ≤ x.exponent then signed * Int.pow 2 x.exponent.toNat == n
    else signed == n * Int.pow 2 (-x.exponent).toNat

def negate (x : Binary64) : Binary64 := ⟨x.bits ^^^ 0x8000000000000000⟩

/-- The nearest integer to a quotient; a half goes to the even neighbour. -/
def roundDiv (numerator denominator : Nat) : Nat :=
  let low := numerator / denominator
  let rest := 2 * (numerator % denominator)
  if rest < denominator ∨ (rest = denominator ∧ low % 2 = 0) then low else low + 1

/-- The quotient divided by `2 ^ shift`, as a pair of natural numbers. -/
def scaled (numerator denominator : Nat) (shift : Int) : Nat × Nat :=
  if 0 ≤ shift then (numerator, denominator * Nat.pow 2 shift.toNat)
  else (numerator * Nat.pow 2 (-shift).toNat, denominator)

/-- The non-negative number nearest to a quotient, infinite if that is too large. -/
def ofQuotient (numerator denominator : Nat) : Binary64 :=
  if numerator = 0 then ⟨0⟩
  else
    let least : Int := (Nat.log2 numerator : Int) - Nat.log2 denominator - 53
    let low : Int := max least (-1074)
    let (top, bottom) := scaled numerator denominator low
    let shift := if Nat.pow 2 53 * bottom ≤ top then low + 1 else low
    let (top, bottom) := scaled numerator denominator shift
    let field := (shift + 1074).toNat * Nat.pow 2 52 + roundDiv top bottom
    ⟨(min field (2047 * Nat.pow 2 52)).toUInt64⟩

def ofNat (n : Nat) : Binary64 := ofQuotient n 1

/-- The exact value of a finite magnitude, as a quotient. -/
def quotient (x : Binary64) : Nat × Nat := scaled x.significand 1 (-x.exponent)

def mul (x y : Binary64) : Binary64 :=
  ofQuotient (x.quotient.1 * y.quotient.1) (x.quotient.2 * y.quotient.2)

def div (x y : Binary64) : Binary64 :=
  ofQuotient (x.quotient.1 * y.quotient.2) (x.quotient.2 * y.quotient.1)

end Binary64

end SealedColumns
