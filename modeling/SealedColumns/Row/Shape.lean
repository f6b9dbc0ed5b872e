import SealedColumns.RowLayout
import SealedColumns.Row.Fields
import SealedColumns.Row.ResultSet

/-!
Fetched rows in the shape the caller wants. Grouping takes the first cell out of
each row and gathers the rests under it; groups stand in the order of their first
row. Two cells belong to one group if they have the same text form, or are both
null, or are the same bytes that are not UTF-8.
-/

namespace SealedColumns

inductive ShapedRow where
  | columns (row : Row)
  | fields (cells : Fields)

namespace ShapedRow

def get? : ShapedRow → String → Option Value
  | columns row, name => row.get? name
  | fields cells, name => cells.get? name

def put : ShapedRow → String → Value → ShapedRow
  | columns row, name, value => columns (row.put name value)
  | fields cells, name, value => fields (cells.put name value)

def ofRow (kind : RowKind) (row : Row) : ShapedRow :=
  match kind with
  | .columns => columns row
  | .fields => fields (.ofRow row)

end ShapedRow

instance : Cells ShapedRow := ⟨ShapedRow.get?, ShapedRow.put⟩

structure KeyedRows where
  key : Value
  rows : List ShapedRow

inductive RowSet where
  | flat (rows : List ShapedRow)
  | grouped (groups : List KeyedRows)

namespace RowSet

/-- All rows, group after group. -/
def rows : RowSet → List ShapedRow
  | flat rows => rows
  | grouped groups => groups.flatMap (·.rows)

def size (set : RowSet) : Nat := set.rows.length

def isEmpty (set : RowSet) : Bool := set.rows.isEmpty

end RowSet

/-- What decides to which group a cell belongs. -/
inductive GroupIdentity where
  | null
  | text (s : String)
  | bytes (data : List UInt8)
  deriving DecidableEq

def Value.groupIdentity (value : Value) : GroupIdentity :=
  match value.toText? with
  | some s => .text s
  | none =>
      match value with
      | .blob data => .bytes data
      | _ => .null

def addToGroup (key : Value) (row : ShapedRow) : List KeyedRows → List KeyedRows
  | [] => [⟨key, [row]⟩]
  | group :: rest =>
      if group.key.groupIdentity = key.groupIdentity then
        { group with rows := group.rows ++ [row] } :: rest
      else group :: addToGroup key row rest

/-- The cell that decides the group, null for a row without cells. -/
def Row.firstCell (row : Row) : Value := row.values.headD .null

/-- The rest of a row, under the names given for it. -/
def Row.nested (names : List String) (row : Row) : Row :=
  .ofNames names (row.values.drop 1)

def groupRows (kind : RowKind) (names : List String) (rows : List Row) : List KeyedRows :=
  rows.foldl
    (fun groups row => addToGroup row.firstCell (.ofRow kind (row.nested names)) groups) []

/-- Without column names there are no groups. -/
def ResultSet.shaped (results : ResultSet) (layout : RowLayout) : RowSet :=
  if layout.grouped then
    match results.names? with
    | none => .grouped []
    | some names => .grouped (groupRows layout.kind (names.drop 1) results.rows)
  else .flat (results.rows.map (.ofRow layout.kind))

end SealedColumns
