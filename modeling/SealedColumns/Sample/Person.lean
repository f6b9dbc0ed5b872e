import SealedColumns.Statement

/-!
A person made from a row with a number, a name and, if it is text, an `ssn`.
-/

namespace SealedColumns.Sample

structure Person where
  id : Int64
  name : String
  ssn : Option String
  deriving DecidableEq

instance : OfRow Person where
  ofRow row :=
    match (row.get? "id").bind Value.asInt? with
    | none => .error (.other (.missingColumn "id"))
    | some id =>
        match (row.get? "name").bind Value.asText? with
        | none => .error (.other (.missingColumn "name"))
        | some name => .ok ⟨id, name, (row.get? "ssn").bind Value.asText?⟩

end SealedColumns.Sample
