import SealedColumns.Decimal.Arithmetic
import SealedColumns.Error
import SealedColumns.Parameters

/-!
The values a database engine stores, and the bindings it takes. Every key of a
binding has the sigil. Stored text is bytes, which need not be UTF-8; read back,
such text is a blob.
-/

namespace SealedColumns.Sql

inductive Cell where
  | null
  | integer (n : Int64)
  | real (x : Binary64)
  | text (data : List UInt8)
  | blob (data : List UInt8)
  deriving DecidableEq

namespace Cell

def ofText (text : String) : Cell := .text (Text.bytes text)

def ofValue : Value → Cell
  | .null => null
  | .int n => integer n
  | .float x => real x
  | .text s => ofText s
  | .bool b => integer (if b then 1 else 0)
  | .timestamp time => ofText time.text
  | .json document => ofText document.text
  | .blob data => blob data

def toValue : Cell → Value
  | null => .null
  | integer n => .int n
  | real x => .float x
  | text data =>
      match Text.decode? data with
      | some s => .text s
      | none => .blob data
  | blob data => .blob data

/-- What is stored for a bound cell: a number that is none becomes null. -/
def stored : Cell → Cell
  | real x => if x.isNaN then null else real x
  | cell => cell

/-- Cells of one kind come before those of the next: null, numbers, text, bytes. -/
def rank : Cell → Nat
  | null => 0
  | integer _ | real _ => 1
  | text _ => 2
  | blob _ => 3

def orderBytes : List UInt8 → List UInt8 → Ordering
  | [], [] => .eq
  | [], _ :: _ => .lt
  | _ :: _, [] => .gt
  | a :: rest, b :: more => (compare a b).then (orderBytes rest more)

/-- The order of stored cells. Numbers compare by value. -/
def order : Cell → Cell → Ordering
  | integer n, integer m => compare n.toInt m.toInt
  | real x, real y => x.order y
  | integer n, real y => (y.orderInt n.toInt).swap
  | real x, integer m => x.orderInt m.toInt
  | text a, text b => orderBytes a b
  | blob a, blob b => orderBytes a b
  | a, b => compare a.rank b.rank

/-- Equality of stored cells, for which null equals nothing. -/
def equals (a b : Cell) : Bool := a != null && b != null && a.order b == .eq

end Cell

structure Bindings where
  entries : List (String × Cell)
  deriving DecidableEq

namespace Bindings

def keyWithSigil (key : String) : String := if hasSigil key then key else sigilKey key

def convertFrom (seen : List String) :
    List (String × Value) → Except ParameterFault (List (String × Cell))
  | [] => .ok []
  | (key, value) :: rest =>
      let named := keyWithSigil key
      if named ∈ seen then .error (.boundTwice named)
      else (convertFrom (named :: seen) rest).map ((named, .ofValue value) :: ·)

/-- Gives every key its sigil. A name bound under both keys is refused. -/
def ofParams (params : Parameters) : Except ParameterFault Bindings :=
  (convertFrom [] params.entries).map (⟨·⟩)

end Bindings

end SealedColumns.Sql
