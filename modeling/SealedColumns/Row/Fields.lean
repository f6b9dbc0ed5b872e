import SealedColumns.NameMap
import SealedColumns.Row

/-!
A row as an object: named fields in order. Setting a field that exists changes it
where it stands, so of two columns of one name the first gives the place and the
last gives the value.
-/

namespace SealedColumns

structure Fields where
  entries : List (String × Value)

namespace Fields

def empty : Fields := ⟨[]⟩

def get? (fields : Fields) (name : String) : Option Value :=
  firstNamed name fields.entries

def putFirst (name : String) (value : Value) :
    List (String × Value) → List (String × Value)
  | [] => []
  | (other, kept) :: rest =>
      if other = name then (other, value) :: rest
      else (other, kept) :: putFirst name value rest

/-- Changes a field; without one of that name the fields stay as they are. -/
def put (fields : Fields) (name : String) (value : Value) : Fields :=
  ⟨putFirst name value fields.entries⟩

/-- Changes a field, or adds it behind the others. -/
def set (fields : Fields) (name : String) (value : Value) : Fields :=
  if (fields.get? name).isSome then fields.put name value
  else ⟨fields.entries ++ [(name, value)]⟩

def ofRow (row : Row) : Fields :=
  row.cells.foldl (fun fields cell => fields.set cell.1 cell.2) empty

end Fields

instance : Cells Fields := ⟨Fields.get?, Fields.put⟩

end SealedColumns
