import SealedColumns.Row

/-!
The rows of one execution, gathered under shared column names. The names are set,
or else taken from the first row that brings its own.
-/

namespace SealedColumns

structure ResultSet where
  rows : List Row
  affected : Nat
  header : Option Header

namespace ResultSet

def empty : ResultSet := ⟨[], 0, none⟩

def names? (results : ResultSet) : Option (List String) := results.header.map (·.names)

def setNames (results : ResultSet) (names : List String) : ResultSet :=
  { results with header := some (.ofNames names) }

/-- Adds a row of values under the shared names. Without names it is left out. -/
def addValues (results : ResultSet) (values : List Value) : ResultSet :=
  match results.header with
  | some header =>
      { results with
        rows := results.rows ++ [⟨header, values⟩]
        affected := results.affected + 1 }
  | none => results

def addRow (results : ResultSet) (row : Row) : ResultSet :=
  { rows := results.rows ++ [row]
    affected := results.affected + 1
    header := some (results.header.getD row.header) }

theorem header_addValues (results : ResultSet) (values : List Value) :
    (results.addValues values).header = results.header := by
  unfold addValues
  split <;> rfl

theorem mem_rows_addValues {results : ResultSet} {values : List Value} {row : Row}
    (member : row ∈ (results.addValues values).rows) :
    row ∈ results.rows ∨ ∃ header, results.header = some header ∧ row = ⟨header, values⟩ := by
  unfold addValues at member
  split at member
  · next header shared =>
    rcases List.mem_append.mp member with old | new
    · exact Or.inl old
    · exact Or.inr ⟨header, shared, List.mem_singleton.mp new⟩
  · exact Or.inl member

theorem mem_rows_addRow {results : ResultSet} {row other : Row}
    (member : other ∈ (results.addRow row).rows) : other ∈ results.rows ∨ other = row := by
  rcases List.mem_append.mp member with old | new
  · exact Or.inl old
  · exact Or.inr (List.mem_singleton.mp new)

end ResultSet

end SealedColumns
