import SealedColumns.Decimal.Arithmetic
import SealedColumns.Sql.Numeral

/-!
Numbers and text turned into each other. A text counts as the number it begins with;
whether it is all number, and whether it is written as an integer, is kept beside it.
A number is written with 17 digits, or with fewer ones that read back as well if a run
of nines or zeros leads to them.
-/

namespace SealedColumns.Sql

inductive NumberForm where
  | integer
  | real
  | realBeginning
  | other
  deriving DecidableEq

/-- The number that a text begins with; `digits` are those before its point. -/
structure NumberText where
  form : NumberForm
  negative : Bool
  digits : List Char
  numeral : Numeral

namespace NumberText

def isSpace (c : Char) : Bool :=
  c == ' ' || c == '\t' || c == '\n' || c == '\x0b' || c == '\x0c' || c == '\r'

def readSign : List Char → Bool × List Char
  | '-' :: rest => (true, rest)
  | '+' :: rest => (false, rest)
  | text => (false, text)

def readPlaces : List Char → Option (List Char) × List Char
  | '.' :: rest => (some (rest.takeWhile Char.isDigit), rest.dropWhile Char.isDigit)
  | text => (none, text)

def readPower (text : List Char) : Option (Bool × List Char) × List Char :=
  match text with
  | mark :: rest =>
      if mark = 'e' ∨ mark = 'E' then
        let (negative, rest) := readSign rest
        (some (negative, rest.takeWhile Char.isDigit), rest.dropWhile Char.isDigit)
      else (none, text)
  | [] => (none, [])

/-- A point or an exponent makes a number a real one. An exponent without digits is
    no number, but the text may still begin with one. -/
def formOf (hasDigits complete hasPoint : Bool) (power : Option (Bool × List Char)) :
    NumberForm :=
  let whole := power.all fun (_, digits) => !digits.isEmpty
  let marked := hasPoint || power.isSome
  if !hasDigits then .other
  else if complete && whole then if marked then .real else .integer
  else if marked && (whole || (hasPoint && power.isSome)) then .realBeginning
  else .other

def read (text : List Char) : NumberText :=
  let (negative, rest) := readSign (text.dropWhile isSpace)
  let digits := rest.takeWhile Char.isDigit
  let (places, rest) := readPlaces (rest.dropWhile Char.isDigit)
  let (power, rest) := readPower rest
  let hasDigits := !digits.isEmpty || places.any fun found => !found.isEmpty
  let scale := power.elim 0 fun (negative, digits) => Numeral.power negative digits
  { form := formOf hasDigits (rest.dropWhile isSpace).isEmpty places.isSome power
    negative
    digits
    numeral := Numeral.ofParts digits (places.getD []) scale }

def ofBytes (data : List UInt8) : NumberText :=
  read (data.map fun byte => Char.ofNat byte.toNat)

def toReal (number : NumberText) : Binary64 :=
  Binary64.signed number.negative number.numeral.nearest

def integer? (number : NumberText) : Option Int64 :=
  Numeral.integer? number.negative number.digits

def toInteger (number : NumberText) : Int64 :=
  number.integer?.getD (if number.negative then Int64.minValue else Int64.maxValue)

end NumberText

namespace RealText

def leadingExponent (numerator denominator : Nat) : Int :=
  if denominator ≤ numerator then ((Nat.repr (numerator / denominator)).length : Int) - 1
  else
    let length := (Nat.repr (denominator / numerator)).length
    if denominator ≤ numerator * Nat.pow 10 (length - 1) then -((length : Int) - 1)
    else -(length : Int)

/-- The first 18 digits of a positive quotient, and the exponent of the first of them. -/
def expansion (numerator denominator : Nat) : List Char × Int :=
  let exponent := leadingExponent numerator denominator
  let power := 17 - exponent
  let top := if 0 ≤ power then numerator * Nat.pow 10 power.toNat else numerator
  let bottom := if 0 ≤ power then denominator else denominator * Nat.pow 10 (-power).toNat
  ((Nat.repr (top / bottom)).toList, exponent)

def withoutTrailingZeros (digits : List Char) : List Char :=
  (digits.reverse.dropWhile (· == '0')).reverse

/-- The number of at most 14 digits that a run of nines or of zeros behind them leads
    to. Large numbers need no such run. -/
def nearby? (digits : List Char) (exponent : Int) : Option Numeral :=
  let leading := digits.take 14
  if (digits.drop 14).take 2 = ['9', '9'] then
    let kept := (leading.reverse.dropWhile (· == '9')).reverse
    some ⟨Numeral.value kept + 1, exponent + 1 - kept.length⟩
  else if 17 ≤ exponent ∨ (digits.drop 13).take 3 = ['0', '0', '0'] then
    let kept := withoutTrailingZeros leading
    some ⟨Numeral.value kept, exponent + 1 - kept.length⟩
  else none

/-- Seventeen digits, the last of them rounded by the one behind it. -/
def rounded (digits : List Char) (exponent : Int) : Numeral :=
  ⟨(Numeral.value digits + 5) / 10, exponent - 16⟩

def numeral (x : Binary64) : Numeral :=
  let (digits, exponent) := expansion x.quotient.1 x.quotient.2
  ((nearby? digits exponent).filter (·.nearest == x)).getD (rounded digits exponent)

/-- At least one digit stands behind the point. -/
def places (digits : List Char) : List Char :=
  let digits := withoutTrailingZeros digits
  if digits.isEmpty then ['0'] else digits

def exponentText (exponent : Int) : List Char :=
  let digits := Nat.repr exponent.natAbs
  'e' :: (if exponent < 0 then '-' else '+')
    :: ((if digits.length < 2 then ['0'] else []) ++ digits.toList)

def layout (digits : List Char) (exponent : Int) : List Char :=
  if exponent < -4 ∨ 16 < exponent then
    digits.take 1 ++ '.' :: places (digits.drop 1) ++ exponentText exponent
  else if exponent < 0 then
    '0' :: '.' :: List.replicate (-exponent - 1).toNat '0' ++ withoutTrailingZeros digits
  else
    let whole := (exponent + 1).toNat
    digits.take whole ++ List.replicate (whole - digits.length) '0'
      ++ '.' :: places (digits.drop whole)

def magnitude (x : Binary64) : List Char :=
  if x.isInfinite then "Inf".toList
  else if x.isZero then "0.0".toList
  else
    let written := numeral x
    let digits := (Nat.repr written.significand).toList
    layout digits (written.exponent + digits.length - 1)

/-- The text of a number that is no NaN. Zero has no sign. -/
def ofReal (x : Binary64) : String :=
  String.ofList
    (if x.negative && !x.isZero then '-' :: magnitude x.negate else magnitude x)

end RealText

end SealedColumns.Sql
