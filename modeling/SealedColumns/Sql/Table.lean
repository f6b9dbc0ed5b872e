import SealedColumns.Sql.Affinity
import SealedColumns.Sql.Name
import SealedColumns.Sql.Term

/-!
Tables held in memory. Rows stand in the order of their numbers, no two of which are
equal. A row is checked against the other rows before it is put in its place.
-/

namespace SealedColumns.Sql

/-- A column keeps cells towards its affinity, and the default where none is given. -/
structure Column where
  name : String
  affinity : Affinity
  notNull : Bool
  default : Cell
  collation : Collation
  deriving DecidableEq

/-- `unique` are the positions of columns that no two rows share, the last rule first.
    One column may stand for the row's number. -/
structure TableLayout where
  name : String
  columns : List Column
  unique : List (List Nat)
  numbered : Option Nat
  deriving DecidableEq

structure Table where
  layout : TableLayout
  rows : List TableRow
  deriving DecidableEq

namespace TableLayout

def columnNames (layout : TableLayout) : List String := layout.columns.map (·.name)

def position? (layout : TableLayout) (name : String) : Option Nat :=
  layout.columnNames.findIdx? (sameName name)

def columnName (layout : TableLayout) (position : Nat) : String :=
  (layout.columnNames[position]?).getD ""

def row (layout : TableLayout) (number : Int64) (cells : List Cell) : TableRow where
  number
  cells := (layout.columns.zip cells).mapIdx fun position (column, cell) =>
    if layout.numbered = some position then .integer number
    else cell.towards column.affinity

def collationAt (layout : TableLayout) (position : Nat) : Collation :=
  ((layout.columns[position]?).map (·.collation)).getD .binary

def cellsAt (layout : TableLayout) (row : TableRow) (positions : List Nat) : List Cell :=
  positions.map fun position =>
    ((row.cells[position]?).getD .null).collated (layout.collationAt position)

def repeats (layout : TableLayout) (positions : List Nat) (row other : TableRow) : Bool :=
  ((layout.cellsAt row positions).zip (layout.cellsAt other positions)).all fun (a, b) =>
    a.equals b

/-- The rule that a row would break beside other rows. Null columns are told before a
    repeated number, and that before repeated columns. -/
def brokenRule? (layout : TableLayout) (others : List TableRow) (row : TableRow) :
    Option Fault :=
  let missing := (layout.columns.zip row.cells).find? fun (column, cell) =>
    column.notNull && cell == .null
  let repeated := layout.unique.find? fun positions => others.any (layout.repeats positions row)
  let numberName := (layout.numbered.map layout.columnName).getD "rowid"
  match missing with
  | some (column, _) => some (.nullInColumn layout.name column.name)
  | none =>
      if others.any (·.number == row.number) then
        some (.repeatedInColumns layout.name [numberName])
      else repeated.map fun positions =>
        .repeatedInColumns layout.name (positions.map layout.columnName)

end TableLayout

namespace Table

def insertRow (row : TableRow) : List TableRow → List TableRow
  | [] => [row]
  | other :: rest =>
      if other.number < row.number then other :: insertRow row rest else row :: other :: rest

/-- The number of the next row, none if the last one has the largest. -/
def nextNumber? (table : Table) : Option Int64 :=
  match table.rows.getLast? with
  | none => some 1
  | some last => if last.number = Int64.maxValue then none else some (last.number + 1)

/-- The number that a cell asks for; null asks for the next one. -/
def askedNumber (table : Table) (number : Option Cell) : Except Fault Int64 :=
  match number.getD .null with
  | .null => table.nextNumber?.elim (.error .notCarriedOut) .ok
  | cell => cell.integer?.elim (.error .mismatch) .ok

def insert (table : Table) (number : Option Cell) (cells : List Cell) :
    Except Fault Table := do
  let number ← table.askedNumber number
  let row := table.layout.row number cells
  match table.layout.brokenRule? table.rows row with
  | some fault => .error fault
  | none => .ok { table with rows := insertRow row table.rows }

def replace (table : Table) (old : TableRow) (number : Option Cell) (cells : List Cell) :
    Except Fault Table := do
  let number ← match number with
    | none => .ok old.number
    | some cell => cell.integer?.elim (.error .mismatch) .ok
  let row := table.layout.row number cells
  let others := table.rows.filter (·.number != old.number)
  match table.layout.brokenRule? others row with
  | some fault => .error fault
  | none => .ok { table with rows := insertRow row others }

end Table

end SealedColumns.Sql
