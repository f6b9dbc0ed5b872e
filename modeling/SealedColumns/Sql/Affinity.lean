import SealedColumns.Sql.Collation
import SealedColumns.Sql.NumberText

/-!
The kinds of value that columns and comparisons prefer. An affinity follows from the
name of a type. Turning a value towards an affinity changes it only if nothing is
lost; a cast changes it in any case.
-/

namespace SealedColumns.Sql

inductive Affinity where
  | blob
  | text
  | numeric
  | integer
  | real
  deriving DecidableEq

namespace Affinity

def isNumeric : Affinity → Bool
  | blob | text => false
  | numeric | integer | real => true

/-- Reads a type name from its start; `recent` are the last letters before. An INT
    anywhere decides, otherwise text comes before bytes and bytes before real numbers. -/
def ofLetters (found : Affinity) (recent : List Char) : List Char → Affinity
  | [] => found
  | c :: rest =>
      let recent := c.toLower :: recent.take 3
      match recent.reverse with
      | ['c', 'h', 'a', 'r'] | ['c', 'l', 'o', 'b'] | ['t', 'e', 'x', 't'] =>
          ofLetters text recent rest
      | ['b', 'l', 'o', 'b'] =>
          ofLetters (if found = numeric ∨ found = real then blob else found) recent rest
      | ['r', 'e', 'a', 'l'] | ['f', 'l', 'o', 'a'] | ['d', 'o', 'u', 'b'] =>
          ofLetters (if found = numeric then real else found) recent rest
      | _ =>
          if recent.take 3 = ['t', 'n', 'i'] then integer else ofLetters found recent rest

def ofType (name : String) : Affinity := ofLetters numeric [] name.toList

/-- The affinity of a column, which without a type keeps values as they are. -/
def ofColumnType (name : String) : Affinity := if name.isEmpty then blob else ofType name

/-- The affinity under which two values are compared. One that prefers nothing follows
    the other, and of two that do, numbers prevail. -/
def joint : Option Affinity → Option Affinity → Affinity
  | some a, some b => if a.isNumeric || b.isNumeric then numeric else blob
  | some a, none => a
  | none, some b => b
  | none, none => blob

end Affinity

namespace Cell

def numberText? : Cell → Option String
  | integer n => some (toString n.toInt)
  | real x => some (RealText.ofReal x)
  | _ => none

def towardsText (cell : Cell) : Cell := (cell.numberText?.map ofText).getD cell

def towardsInteger (cell : Cell) : Cell :=
  match cell with
  | real x => if x.equalsInt x.truncate then integer (Int64.ofInt x.truncate) else cell
  | _ => cell

def ofNumberText? (number : NumberText) : Option Cell :=
  match number.form, number.integer? with
  | .integer, some n => some (integer n)
  | .integer, none | .real, _ => some (real number.toReal)
  | _, _ => none

def towardsNumber (cell : Cell) : Cell :=
  match cell with
  | text data => (ofNumberText? (.ofBytes data)).getD cell
  | _ => cell

def towardsReal (cell : Cell) : Cell :=
  match cell with
  | integer n => real (.ofInt n.toInt)
  | _ => cell

def towards (affinity : Affinity) (cell : Cell) : Cell :=
  match affinity with
  | .blob => cell
  | .text => cell.towardsText
  | .numeric | .integer => cell.towardsNumber.towardsInteger
  | .real => cell.towardsNumber.towardsReal

def bytes? : Cell → Option (List UInt8)
  | text data | blob data => some data
  | _ => none

def toInteger : Cell → Int64
  | null => 0
  | integer n => n
  | real x => Int64.ofInt x.truncate
  | text data | blob data => (NumberText.ofBytes data).toInteger

def toReal : Cell → Binary64
  | null => ⟨0⟩
  | integer n => .ofInt n.toInt
  | real x => x
  | text data | blob data => (NumberText.ofBytes data).toReal

/-- The number to calculate with, which for text is an integer if it looks like one. -/
def operand : Cell → Cell
  | text data | blob data =>
      let number := NumberText.ofBytes data
      match number.form, number.integer? with
      | .integer, some n | .other, some n => integer n
      | _, _ => real number.toReal
  | cell => cell

def integer? (cell : Cell) : Option Int64 :=
  match cell.towards .numeric with
  | integer n => some n
  | _ => none

def truth? : Cell → Option Bool
  | null => none
  | integer n => some (n != 0)
  | cell => some !cell.toReal.isZero

def ofBool (b : Bool) : Cell := integer (if b then 1 else 0)

def ofTruth : Option Bool → Cell
  | none => null
  | some b => ofBool b

/-- The integer that a real number is, within 52 bits. -/
def smallInteger? (x : Binary64) : Option Int64 :=
  let n := x.truncate
  if x.isZero then some 0
  else if x.equalsInt n && -(Int.pow 2 51) ≤ n && n < Int.pow 2 51 then some (Int64.ofInt n)
  else none

def ofBytesAsNumber (data : List UInt8) : Cell :=
  let number := NumberText.ofBytes data
  match number.form, number.integer? with
  | .integer, some n | .other, some n => integer n
  | _, _ => ((smallInteger? number.toReal).map integer).getD (real number.toReal)

def cast (affinity : Affinity) (cell : Cell) : Cell :=
  match affinity, cell with
  | _, null => null
  | .blob, cell => blob (cell.towardsText.bytes?.getD [])
  | .text, cell => text (cell.towardsText.bytes?.getD [])
  | .numeric, text data | .numeric, blob data => ofBytesAsNumber data
  | .numeric, cell => cell
  | .integer, cell => integer cell.toInteger
  | .real, cell => real cell.toReal

/-- Both cells as they are compared under an affinity: beside text, numbers become
    text or text becomes a number. -/
def comparable (affinity : Affinity) (a b : Cell) : Cell × Cell :=
  let isText (cell : Cell) : Bool := cell matches text _
  match affinity with
  | .blob => (a, b)
  | .text => if isText a || isText b then (a.towardsText, b.towardsText) else (a, b)
  | .numeric | .integer | .real => (a.towardsNumber, b.towardsNumber)

def orderUnder (affinity : Affinity) (collation : Collation) (a b : Cell) : Ordering :=
  let (a, b) := comparable affinity a b
  (a.collated collation).order (b.collated collation)

end Cell

end SealedColumns.Sql
