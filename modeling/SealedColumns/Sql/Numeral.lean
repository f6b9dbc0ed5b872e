import SealedColumns.Decimal.Binary64
import SealedColumns.Json.Reader

/-!
Numbers as they are written. A number is a significand times a power of ten, and is
rounded once. Underscores may join the digits of a numeral, and hexadecimal numerals
spell 64 bits in two's complement.
-/

namespace SealedColumns.Sql

/-- The number `significand * 10 ^ exponent`. -/
structure Numeral where
  significand : Nat
  exponent : Int
  deriving DecidableEq

namespace Numeral

def value (digits : List Char) : Nat :=
  digits.foldl (fun n digit => n * 10 + Json.digitValue digit) 0

/-- A significand that has come this far takes no further digits. -/
def fullSignificand : Nat := (Nat.pow 2 64 - 10) / 10

/-- A digit before the point; one that the significand does not take counts as a zero. -/
def pushWhole (n : Numeral) (digit : Char) : Numeral :=
  if n.significand < fullSignificand then
    { n with significand := n.significand * 10 + Json.digitValue digit }
  else { n with exponent := n.exponent + 1 }

/-- A digit behind the point; one that the significand does not take is dropped. -/
def pushPlace (n : Numeral) (digit : Char) : Numeral :=
  if n.significand < fullSignificand then
    ⟨n.significand * 10 + Json.digitValue digit, n.exponent - 1⟩
  else n

/-- The power of ten that an exponent asks for. Large ones need not be exact. -/
def power (negative : Bool) (digits : List Char) : Int :=
  let size := min (value digits) 10000
  if negative then -(size : Int) else size

def ofParts (whole places : List Char) (power : Int) : Numeral :=
  let placed := places.foldl pushPlace (whole.foldl pushWhole ⟨0, 0⟩)
  { placed with exponent := placed.exponent + power }

/-- The nearest floating-point number. Beyond 400 places it is zero or infinite. -/
def nearest (n : Numeral) : Binary64 :=
  let shift := max (-400) (min 400 n.exponent)
  if 0 ≤ shift then .ofNat (n.significand * Nat.pow 10 shift.toNat)
  else .ofQuotient n.significand (Nat.pow 10 (-shift).toNat)

def isHexadecimal (text : List Char) : Bool :=
  match text with
  | '0' :: x :: _ => x == 'x' || x == 'X'
  | _ => false

def withoutJoints (text : List Char) : List Char := text.filter (· != '_')

/-- An underscore that does not stand between two digits shows the numeral as it is
    once the underscores before it are taken out in place; the last one is told. -/
def faultyJointFrom (hexadecimal : Bool) (text : List Char) (seen : List Char) (last : Char)
    (told : Option String) : List Char → Option String
  | [] => told
  | c :: rest =>
      let isDigit (d : Char) : Bool :=
        if hexadecimal then (Json.hexDigit? d).isSome else d.isDigit
      if c != '_' then faultyJointFrom hexadecimal text (c :: seen) c told rest
      else if isDigit last && rest.head?.any isDigit then
        faultyJointFrom hexadecimal text seen c told rest
      else
        let shown := seen.reverse ++ text.drop seen.length
        faultyJointFrom hexadecimal text seen c (some (String.ofList shown)) rest

def faultyJoint? (text : List Char) : Option String :=
  faultyJointFrom (isHexadecimal text) text [] ' ' none text

def hexDigits (text : List Char) : List Char := (text.drop 2).dropWhile (· == '0')

def hexValue (digits : List Char) : Nat :=
  digits.foldl (fun n digit => n * 16 + (Json.hexDigit? digit).getD 0) 0

/-- The 64 bits of a hexadecimal numeral, negated if a minus stands before it. -/
def hexInteger (negative : Bool) (text : List Char) : Int64 :=
  let bits := (UInt64.ofNat (hexValue (hexDigits text))).toInt64
  if negative then -bits else bits

def isTooLarge (negative : Bool) (text : List Char) : Bool :=
  isHexadecimal text && (16 < (hexDigits text).length
    || (negative && hexInteger false text == Int64.minValue))

def ofText (text : List Char) : Numeral :=
  let places := match text.dropWhile Char.isDigit with
    | '.' :: rest => rest.takeWhile Char.isDigit
    | _ => []
  let power := match text.dropWhile fun c => c.isDigit || c == '.' with
    | _ :: '-' :: digits => power true digits
    | _ :: '+' :: digits => power false digits
    | _ :: digits => power false digits
    | [] => 0
  ofParts (text.takeWhile Char.isDigit) places power

def signed (negative : Bool) (n : Nat) : Int := if negative then -(n : Int) else n

def integer? (negative : Bool) (digits : List Char) : Option Int64 :=
  let n := signed negative (value digits)
  if -(Int.pow 2 63) ≤ n ∧ n < Int.pow 2 63 then some (Int64.ofInt n) else none

end Numeral

end SealedColumns.Sql
