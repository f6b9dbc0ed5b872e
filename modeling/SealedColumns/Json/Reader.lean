import SealedColumns.Json
import SealedColumns.NameMap

/-!
Reading JSON documents. A number without fraction and exponent that fits 64 bits
is an integer. Any other is a real number: of its digits those that fit 64 bits
are taken, and the number they spell is multiplied or divided by a power of ten,
with one rounding for each step.
-/

namespace SealedColumns.Json

def isSpace (c : Char) : Bool := c == ' ' || c == '\t' || c == '\n' || c == '\r'

def skipSpace (input : List Char) : List Char := input.dropWhile isSpace

def digitValue (c : Char) : Nat := c.toNat - 48

/-- Appends digits to a number as long as it fits 64 bits; gives the digits left over. -/
def appendDigits (n : Nat) : List Char → Nat × List Char
  | [] => (n, [])
  | digit :: rest =>
      if n * 10 + digitValue digit < Nat.pow 2 64 then appendDigits (n * 10 + digitValue digit) rest
      else (n, digit :: rest)

def powerOfTen (n : Nat) : Binary64 := .ofNat (Nat.pow 10 n)

/-- Powers beyond 10 ^ 308 are not numbers of their own, so the division goes in steps. -/
def divideByPower (x : Binary64) (n : Nat) : Binary64 :=
  if n ≤ 308 then x.div (powerOfTen n)
  else if x.isZero then x
  else divideByPower (x.div (powerOfTen 308)) (n - 308)
termination_by n

/-- Nothing if the number is too large. -/
def scaleByPower (x : Binary64) (exponent : Int) : Option Binary64 :=
  if exponent < 0 then some (divideByPower x exponent.natAbs)
  else if x.isZero then some x
  else if exponent ≤ 308 then
    let scaled := x.mul (powerOfTen exponent.natAbs)
    if scaled.isInfinite then none else some scaled
  else none

def withSign (negative : Bool) (x : Binary64) : Binary64 :=
  if negative then x.negate else x

/-- The number of a literal, `places` being the digits after the point. -/
def Number.ofLiteral (negative : Bool) (whole : List Char)
    (places : Option (List Char)) (exponent : Option Int) : Option Number :=
  let (n, dropped) := appendDigits 0 whole
  match places, exponent with
  | none, none =>
      if dropped.isEmpty && (!negative || (0 < n && n ≤ Nat.pow 2 63)) then
        some (.integer (if negative then -(n : Int) else n))
      else
        (scaleByPower (.ofNat n) dropped.length).map (fun x => .real (withSign negative x))
  | _, _ =>
      let digits := places.getD []
      let (n, ignored) := appendDigits n digits
      let taken := digits.length - ignored.length
      let power := (dropped.length : Int) - taken + exponent.getD 0
      (scaleByPower (.ofNat n) power).map (fun x => .real (withSign negative x))

def readExponent (input : List Char) : Option (Option Int × List Char) :=
  match input with
  | 'e' :: rest | 'E' :: rest =>
      let (negative, rest) := match rest with
        | '-' :: more => (true, more)
        | '+' :: more => (false, more)
        | more => (false, more)
      let digits := rest.takeWhile Char.isDigit
      if digits.isEmpty then none
      else
        let n : Nat := digits.foldl (fun n digit => n * 10 + digitValue digit) 0
        some (some (if negative then -(n : Int) else n), rest.dropWhile Char.isDigit)
  | _ => some (none, input)

def readPlaces (input : List Char) : Option (Option (List Char) × List Char) :=
  match input with
  | '.' :: rest =>
      let digits := rest.takeWhile Char.isDigit
      if digits.isEmpty then none else some (some digits, rest.dropWhile Char.isDigit)
  | _ => some (none, input)

def readNumber (negative : Bool) (input : List Char) : Option (Number × List Char) := do
  let whole := input.takeWhile Char.isDigit
  if whole.isEmpty || (whole.head? == some '0' && 1 < whole.length) then none
  else
    let (places, rest) ← readPlaces (input.dropWhile Char.isDigit)
    let (exponent, rest) ← readExponent rest
    let number ← Number.ofLiteral negative whole places exponent
    some (number, rest)

def hexDigit? (c : Char) : Option Nat :=
  if c.isDigit then some (c.toNat - 48)
  else if 'a' ≤ c ∧ c ≤ 'f' then some (c.toNat - 87)
  else if 'A' ≤ c ∧ c ≤ 'F' then some (c.toNat - 55)
  else none

def hexUnit? (a b c d : Char) : Option Nat := do
  some ((← hexDigit? a) * 4096 + (← hexDigit? b) * 256 + (← hexDigit? c) * 16 + (← hexDigit? d))

def simpleEscape? (c : Char) : Option Char :=
  match c with
  | '\x22' => some '\x22'
  | '\\' => some '\\'
  | '/' => some '/'
  | 'b' => some '\x08'
  | 'f' => some '\x0c'
  | 'n' => some '\n'
  | 'r' => some '\r'
  | 't' => some '\t'
  | _ => none

/-- The characters up to the closing quote. A code point above FFFF is escaped as
    a pair of units; half a pair is an error. -/
def readString : List Char → Option (List Char × List Char)
  | [] => none
  | '\x22' :: rest => some ([], rest)
  | '\\' :: 'u' :: a :: b :: c :: d :: '\\' :: 'u' :: e :: f :: g :: h :: rest => do
      let first ← hexUnit? a b c d
      if 0xd800 ≤ first ∧ first < 0xdc00 then
        let second ← hexUnit? e f g h
        if 0xdc00 ≤ second ∧ second < 0xe000 then
          let (more, after) ← readString rest
          let point := 0x10000 + (first - 0xd800) * 0x400 + (second - 0xdc00)
          some (Char.ofNat point :: more, after)
        else none
      else if 0xdc00 ≤ first ∧ first < 0xe000 then none
      else
        let (more, after) ← readString ('\\' :: 'u' :: e :: f :: g :: h :: rest)
        some (Char.ofNat first :: more, after)
  | '\\' :: 'u' :: a :: b :: c :: d :: rest => do
      let unit ← hexUnit? a b c d
      if 0xd800 ≤ unit ∧ unit < 0xe000 then none
      else
        let (more, after) ← readString rest
        some (Char.ofNat unit :: more, after)
  | '\\' :: c :: rest => do
      let plain ← simpleEscape? c
      let (more, after) ← readString rest
      some (plain :: more, after)
  | c :: rest => do
      if c.toNat < 0x20 then none
      else
        let (more, after) ← readString rest
        some (c :: more, after)

def readWord (word : String) (value : Json) (input : List Char) : Option (Json × List Char) :=
  if word.toList.isPrefixOf input then some (value, input.drop word.length) else none

mutual

/-- Reads one value after blanks. Every step takes a character, so `room` for one
    step per character is enough. -/
def readValue (room : Nat) (input : List Char) : Option (Json × List Char) :=
  match room with
  | 0 => none
  | room + 1 =>
      match skipSpace input with
      | '\x22' :: rest => do
          let (text, rest) ← readString rest
          some (.string (String.ofList text), rest)
      | '[' :: rest =>
          match skipSpace rest with
          | ']' :: rest => some (.array [], rest)
          | rest => do
              let (items, rest) ← readItems room rest
              some (.array items, rest)
      | '\x7b' :: rest =>
          match skipSpace rest with
          | '\x7d' :: rest => some (.object [], rest)
          | rest => do
              let (fields, rest) ← readFields room rest []
              some (.object fields, rest)
      | '-' :: rest => (readNumber true rest).map (fun (n, rest) => (.number n, rest))
      | 't' :: rest => readWord "rue" (.bool true) rest
      | 'f' :: rest => readWord "alse" (.bool false) rest
      | 'n' :: rest => readWord "ull" .null rest
      | rest => (readNumber false rest).map (fun (n, rest) => (.number n, rest))

def readItems (room : Nat) (input : List Char) : Option (List Json × List Char) :=
  match room with
  | 0 => none
  | room + 1 => do
      let (item, rest) ← readValue room input
      match skipSpace rest with
      | ',' :: rest =>
          let (items, rest) ← readItems room rest
          some (item :: items, rest)
      | ']' :: rest => some ([item], rest)
      | _ => none

/-- A later field replaces an earlier one of the same name. -/
def readFields (room : Nat) (input : List Char) (fields : List (String × Json)) :
    Option (List (String × Json) × List Char) :=
  match room with
  | 0 => none
  | room + 1 =>
      match skipSpace input with
      | '\x22' :: rest => do
          let (name, rest) ← readString rest
          match skipSpace rest with
          | ':' :: rest =>
              let (value, rest) ← readValue room rest
              let fields := NameMap.insertEntry (String.ofList name) value fields
              match skipSpace rest with
              | ',' :: rest => readFields room rest fields
              | '\x7d' :: rest => some (fields, rest)
              | _ => none
          | _ => none
      | _ => none

end

/-- The document that the whole text spells. -/
def parse? (text : String) : Option Json :=
  match readValue (2 * text.length + 2) text.toList with
  | some (value, rest) => if (skipSpace rest).isEmpty then some value else none
  | none => none

end SealedColumns.Json
