import SealedColumns.Sql.Arithmetic

/-!
Expressions whose names are resolved: a term is a function of the bound parameters and
of one row.
-/

namespace SealedColumns.Sql

structure TableRow where
  number : Int64
  cells : List Cell
  deriving DecidableEq

inductive Term where
  | constant (cell : Cell)
  | parameter (slot : Nat)
  | rowNumber
  | column (position : Nat)
  | signed (sign : Sign) (operand : Term)
  | isTruth (truth : Bool) (operand : Term)
  | or (left right : Term)
  | and (left right : Term)
  | is (affinity : Affinity) (collation : Collation) (left right : Term)
  | compare (relation : Relation) (affinity : Affinity) (collation : Collation)
      (left right : Term)
  | calculate (calculation : Calculation) (left right : Term)
  | cast (affinity : Affinity) (operand : Term)
  | choice (condition yes no : Term)
  deriving DecidableEq

namespace Term

/-- The value of a term. Only a condition that is true chooses the first of two terms. -/
def evaluate (bound : Nat → Cell) (row : TableRow) : Term → Cell
  | constant cell => cell
  | parameter slot => bound slot
  | rowNumber => .integer row.number
  | column position => (row.cells[position]?).getD .null
  | signed sign operand => (evaluate bound row operand).signedBy sign
  | isTruth truth operand => .ofBool ((evaluate bound row operand).truth? == some truth)
  | or left right =>
      .ofTruth (Cell.disjoined (evaluate bound row left).truth? (evaluate bound row right).truth?)
  | and left right =>
      .ofTruth (Cell.conjoined (evaluate bound row left).truth? (evaluate bound row right).truth?)
  | is affinity collation left right =>
      .ofBool
        (Cell.isSame affinity collation (evaluate bound row left) (evaluate bound row right))
  | compare relation affinity collation left right =>
      Cell.compared relation affinity collation (evaluate bound row left)
        (evaluate bound row right)
  | calculate calculation left right =>
      Cell.calculate calculation (evaluate bound row left) (evaluate bound row right)
  | cast affinity operand => (evaluate bound row operand).cast affinity
  | choice condition yes no =>
      if (evaluate bound row condition).truth? = some true then evaluate bound row yes
      else evaluate bound row no

def holds (bound : Nat → Cell) (row : TableRow) (condition : Option Term) : Bool :=
  condition.all fun term => (evaluate bound row term).truth? == some true

end Term

end SealedColumns.Sql
