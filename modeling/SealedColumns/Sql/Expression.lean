import SealedColumns.Sql.Cell
import SealedColumns.Sql.Name

/-!
The expressions of SQL as they are written. Names stand at their places in the text,
since they may turn out to be unknown.
-/

namespace SealedColumns.Sql

inductive Relation where
  | equal
  | unequal
  | less
  | atMost
  | greater
  | atLeast
  deriving DecidableEq

inductive Calculation where
  | add
  | subtract
  | multiply
  | divide
  | remainder
  | bitAnd
  | bitOr
  | shiftLeft
  | shiftRight
  | concatenate
  deriving DecidableEq

inductive Operator where
  | or
  | and
  | is
  | compare (relation : Relation)
  | calculate (calculation : Calculation)
  deriving DecidableEq

/-- A plus before an operand leaves its value as it is but not its affinity. -/
inductive Sign where
  | not
  | minus
  | plus
  | complement
  deriving DecidableEq

inductive NullOrder where
  | first
  | last
  deriving DecidableEq

/-- A name with those of its table and database before it, the outermost first. -/
structure Reference where
  owners : List String
  name : String
  quote : Option Char
  offset : Nat
  deriving DecidableEq

namespace Reference

def written (name : Reference) : String := ".".intercalate (name.owners ++ [name.name])

def truth? (name : Reference) : Option Bool :=
  if name.quote.isSome || !name.owners.isEmpty then none
  else if sameName name.name "TRUE" then some true
  else if sameName name.name "FALSE" then some false
  else none

end Reference

/-- Functions are called in vain, yet their calls may hold other faults. -/
inductive Expression where
  | cell (value : Cell) (offset : Nat)
  | numeral (digits : String) (offset : Nat)
  | parameter (slot offset : Nat)
  | reference (name : Reference)
  | signed (sign : Sign) (operand : Expression)
  | binary (operator : Operator) (left right : Expression)
  | cast (operand : Expression) (type : String)
  | collated (operand : Expression) (collation : String)
  | choice (condition yes no : Expression)
  | call (name : String) (offset : Nat) (arguments : List Expression)
  | row (items : List Expression)

namespace Expression

def null : Expression := cell .null 0

def zero : Expression := numeral "0" 0

/-- The number of items of a row; anything else is one. -/
def width : Expression → Nat
  | row items => items.length
  | _ => 1

def place? : Expression → Option Nat
  | cell _ offset | numeral _ offset | parameter _ offset | call _ offset _ =>
      if offset = 0 then none else some offset
  | reference name => if name.offset = 0 then none else some name.offset
  | signed _ operand | cast operand _ | collated operand _ => operand.place?
  | binary _ left _ => left.place?
  | choice condition _ _ => condition.place?
  | row _ => none

/-- Whether the value does not depend on what is still to be resolved. -/
def isConstant : Expression → Bool
  | cell _ _ | numeral _ _ | parameter _ _ => true
  | reference name => name.truth?.isSome
  | signed _ operand | cast operand _ | collated operand _ => operand.isConstant
  | binary _ left right => left.isConstant && right.isConstant
  | choice condition yes no => condition.isConstant && yes.isConstant && no.isConstant
  | call _ _ _ => false
  | row items => areConstant items
where
  areConstant : List Expression → Bool
    | [] => true
    | item :: rest => item.isConstant && areConstant rest

/-- Whether the value prefers a kind of its own, as that of a cast does. -/
def hasAffinity : Expression → Bool
  | cast _ _ => true
  | collated operand _ => operand.hasAffinity
  | row (first :: _) => first.hasAffinity
  | _ => false

end Expression

end SealedColumns.Sql
