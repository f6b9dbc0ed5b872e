import SealedColumns.Placeholder.Scan
import SealedColumns.Text.Slice

/-!
Giving each occurrence of a repeated placeholder a name of its own. Names are
chosen first, in text order, as `name_0`, `name_1`, ... leaving out what is in
use; then the chosen names are written over the old ones and all other text is
copied.
-/

namespace SealedColumns.Placeholder

open Text (takeBytes dropBytes)

/-- For each repeated name, the names that replaced it, in text order. -/
abbrev Expansions := NameMap (List String)

def Expansions.generated (table : Expansions) (name : String) : List String :=
  (table.get? name).getD []

def candidate (base : String) (suffix : Nat) : String :=
  base ++ "_" ++ Nat.repr suffix

/-- The first suffix from `suffix` on whose candidate is not in use. Candidates
    differ, so of `used.length + 1` in a row one is free and `used.length` steps
    are enough. -/
def firstFree (used : List String) (base : String) (steps suffix : Nat) : Nat :=
  match steps with
  | 0 => suffix
  | steps + 1 =>
      if candidate base suffix ∈ used then firstFree used base steps (suffix + 1)
      else suffix

/-- The names in use, and for each base the suffix at which its next search starts.
    All candidates of the base before that one are in use. -/
structure Naming where
  used : List String
  hints : NameMap Nat

def Naming.hint (naming : Naming) (base : String) : Nat :=
  (naming.hints.get? base).getD 0

def Naming.freeSuffix (naming : Naming) (base : String) : Nat :=
  firstFree naming.used base naming.used.length (naming.hint base)

def Naming.take (naming : Naming) (base : String) : Naming :=
  let suffix := naming.freeSuffix base
  { used := candidate base suffix :: naming.used
    hints := naming.hints.insert base (suffix + 1) }

/-- Bytes of the statement to be written over with a new name for `base`. -/
structure Edit where
  position : Nat
  length : Nat
  base : String
  name : String
  deriving DecidableEq

def Naming.edits (naming : Naming) : List Occurrence → List Edit
  | [] => []
  | found :: rest =>
      { position := found.position
        length := found.length
        base := found.name
        name := candidate found.name (naming.freeSuffix found.name) }
        :: (naming.take found.name).edits rest

/-- `text` is what follows byte `start` of the statement. -/
def splice (start : Nat) (text : List Char) : List Edit → List Char
  | [] => text
  | edit :: rest =>
      let stop := edit.position + edit.length
      takeBytes (edit.position - start) text ++ ':' :: edit.name.toList
        ++ splice stop (dropBytes (stop - start) text) rest

/-- Where the new names come to stand: byte `start` of the statement is byte
    `target` of the result. -/
def placesFrom (start target : Nat) : List Edit → List Occurrence
  | [] => []
  | edit :: rest =>
      let position := target + (edit.position - start)
      let length := 1 + edit.name.utf8ByteSize
      ⟨position, length, edit.name⟩
        :: placesFrom (edit.position + edit.length) (position + length) rest

def tableOf (edits : List Edit) : Expansions :=
  edits.foldl
    (fun table edit => table.insert edit.base (table.generated edit.base ++ [edit.name]))
    .empty

/-- A statement in which no placeholder is repeated. `kept` says that the text is
    unchanged. -/
structure Renaming where
  sql : String
  kept : Bool
  expansions : Expansions
  replacements : List Occurrence

def editsOf (found : Scan) : List Edit :=
  Naming.edits ⟨found.counts.names, .empty⟩
    (found.occurrences.filter (fun occurrence => 2 ≤ countOf found.counts occurrence.name))

def renameWith (sql : String) (found : Scan) : Renaming :=
  if found.hasRepeats then
    let edits := editsOf found
    { sql := String.ofList (splice 0 sql.toList edits)
      kept := false
      expansions := tableOf edits
      replacements := placesFrom 0 0 edits }
  else
    { sql, kept := true, expansions := .empty, replacements := [] }

def rename (sql : String) : Renaming := renameWith sql (scan sql)

end SealedColumns.Placeholder
