import SealedColumns.NameMap
import SealedColumns.Value

/-!
The parameters of one execution. A placeholder `name` may be bound under the key
`name` or under the key `:name`; looking it up by name tries the bare key first.
-/

namespace SealedColumns

abbrev Parameters := NameMap Value

def sigil : Char := ':'

/-- The key of a placeholder name with its sigil. -/
def sigilKey (name : String) : String := ":" ++ name

def hasSigil (key : String) : Bool := key.toList.head? == some sigil

namespace Parameters

/-- The key that binds a placeholder, with its value. -/
def bound? (params : Parameters) (name : String) : Option (String × Value) :=
  match params.get? name with
  | some value => some (name, value)
  | none => (params.get? (sigilKey name)).map (fun value => (sigilKey name, value))

def binds (params : Parameters) (name : String) : Bool :=
  (bound? params name).isSome

/-- Drops both keys of a placeholder. -/
def unbind (params : Parameters) (name : String) : Parameters :=
  (params.erase name).erase (sigilKey name)

/-- Changes the value under a key that is bound, and binds no new key. -/
def replace (params : Parameters) (key : String) (value : Value) : Parameters :=
  if params.contains key then params.insert key value else params

def equal (left right : Parameters) : Bool :=
  equalEntries left.entries right.entries
where
  equalEntries : List (String × Value) → List (String × Value) → Bool
    | [], [] => true
    | (name, value) :: lefts, (other, second) :: rights =>
        name == other && value.equal second && equalEntries lefts rights
    | _, _ => false

theorem sigilKey_ne (name : String) : sigilKey name ≠ name := by
  intro same
  have lengths := congrArg String.length same
  simp [sigilKey] at lengths

theorem sigilKey_injective {left right : String} (same : sigilKey left = sigilKey right) :
    left = right := by
  have lists := congrArg String.toList same
  simp only [sigilKey, String.toList_append, List.append_cancel_left_eq] at lists
  exact String.toList_inj.mp lists

@[simp] theorem hasSigil_sigilKey (name : String) : hasSigil (sigilKey name) = true := by
  simp [hasSigil, sigilKey, sigil]

theorem get?_unbind (params : Parameters) (name key : String) :
    (unbind params name).get? key =
      if key = name ∨ key = sigilKey name then none else params.get? key := by
  simp only [unbind, NameMap.get?_erase]
  grind

end Parameters

end SealedColumns
