import SealedColumns.Text.Listing

/-!
How fetched rows are handed over: with their columns in order or as fields, and
one by one or grouped under the value of the first column.
-/

namespace SealedColumns

inductive RowKind where
  | columns
  | fields
  deriving DecidableEq, Inhabited

structure RowLayout where
  kind : RowKind
  grouped : Bool
  deriving DecidableEq

namespace RowLayout

/-- Fields, not grouped. -/
def standard : RowLayout := ⟨.fields, false⟩

def inspect (layout : RowLayout) : String :=
  Text.record "FetchMode"
    [("shape", match layout.kind with | .columns => "Assoc" | .fields => "Object"),
     ("grouped", if layout.grouped then "true" else "false")]

end RowLayout

end SealedColumns
