import SealedColumns.Parameters
import SealedColumns.Placeholder.Renaming

/-!
Binding the generated names of a renamed statement. The value of a repeated
name is bound under each name that replaced it, with or without the sigil as the
caller wrote it, unless the caller bound that name. The repeated name itself is
dropped.
-/

namespace SealedColumns.Placeholder

def keyLike (withSigil : Bool) (name : String) : String :=
  if withSigil then sigilKey name else name

/-- Binds a generated name unless it is bound under either key. -/
def bindGenerated (withSigil : Bool) (value : Value) (params : Parameters)
    (name : String) : Parameters :=
  if params.binds name then params
  else params.insert (keyLike withSigil name) value

def expandName (params : Parameters) (base : String) (generated : List String) :
    Parameters :=
  match params.bound? base with
  | none => params
  | some (key, value) =>
      (generated.foldl (bindGenerated (hasSigil key) value) params).unbind base

/-- The parameters for the text with the generated names. -/
def Expansions.expand (table : Expansions) (params : Parameters) : Parameters :=
  table.entries.foldl (fun params entry => expandName params entry.1 entry.2) params

end SealedColumns.Placeholder
