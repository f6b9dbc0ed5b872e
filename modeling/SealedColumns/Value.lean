import SealedColumns.Json
import SealedColumns.Timestamp

/-!
The values of parameters and of cells, with the text form under which a value is
encrypted. Blank values are those that no cipher ever sees.
-/

namespace SealedColumns

inductive Value where
  | null
  | int (n : Int64)
  | float (x : Binary64)
  | text (s : String)
  | bool (b : Bool)
  | timestamp (time : Timestamp)
  | json (document : Json)
  | blob (data : List UInt8)

namespace Value

instance : Inhabited Value := ⟨null⟩

def isBlank : Value → Bool
  | null => true
  | text s => s.isEmpty
  | blob data => data.isEmpty
  | _ => false

def asInt? : Value → Option Int64
  | int n => some n
  | _ => none

def asText? : Value → Option String
  | text s => some s
  | _ => none

/-- The text form of a value. Null has none, nor have bytes that are not UTF-8. -/
def toText? : Value → Option String
  | null => none
  | int n => some (toString n.toInt)
  | float x => some (x.text .plain)
  | text s => some s
  | bool b => some (if b then "1" else "0")
  | timestamp time => some time.text
  | json document => some document.text
  | blob data => Text.decode? data

def inspect : Value → String
  | null => "Null"
  | int n => "Int(" ++ toString n.toInt ++ ")"
  | float x => "Float(" ++ x.text .inspected ++ ")"
  | text s => "Text(" ++ Text.quoted s ++ ")"
  | bool b => "Bool(" ++ (if b then "true" else "false") ++ ")"
  | timestamp time => "Timestamp(" ++ time.inspect ++ ")"
  | json document => "JSON(" ++ document.inspect ++ ")"
  | blob data => "Blob(" ++ Text.bracketed (data.map (fun b => Nat.repr b.toNat)) ++ ")"

/-- Equality within each kind of value, numbers being compared as numbers. -/
def equal : Value → Value → Bool
  | null, null => true
  | int n, int m => n == m
  | float x, float y => x.numEq y
  | text s, text t => s == t
  | bool a, bool b => a == b
  | timestamp a, timestamp b => a == b
  | json a, json b => a.equal b
  | blob a, blob b => a == b
  | _, _ => false

theorem toText?_eq_none_iff (value : Value) :
    value.toText? = none ↔
      value = null ∨ ∃ data, value = blob data ∧ Text.decode? data = none := by
  cases value <;> simp [toText?]

end Value

end SealedColumns
