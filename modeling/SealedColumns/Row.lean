import SealedColumns.Value

/-!
Rows of cells under column names. The position of a name is looked up in an index
made once from the names, in which the last of equal names counts; only a name
that the index lacks is looked for among the row's own names. A row may have
fewer or more values than names.
-/

namespace SealedColumns

/-- The names of a row's columns, and the names from which its index was made. -/
structure Header where
  names : List String
  indexed : List String
  deriving DecidableEq

def lastPosition? (name : String) : List String → Option Nat
  | [] => none
  | first :: rest =>
      match lastPosition? name rest with
      | some position => some (position + 1)
      | none => if first = name then some 0 else none

def firstPosition? (name : String) : List String → Option Nat
  | [] => none
  | first :: rest =>
      if first = name then some 0 else (firstPosition? name rest).map (· + 1)

namespace Header

def ofNames (names : List String) : Header := ⟨names, names⟩

def position? (header : Header) (name : String) : Option Nat :=
  match lastPosition? name header.indexed with
  | some position => some position
  | none => firstPosition? name header.names

end Header

structure Row where
  header : Header
  values : List Value

namespace Row

def ofNames (names : List String) (values : List Value) : Row := ⟨.ofNames names, values⟩

def position? (row : Row) (name : String) : Option Nat := row.header.position? name

def get? (row : Row) (name : String) : Option Value :=
  (row.position? name).bind (fun position => row.values[position]?)

/-- Changes the cell that `get?` reads; a row without it stays as it is. -/
def put (row : Row) (name : String) (value : Value) : Row :=
  match row.position? name with
  | some position => { row with values := row.values.set position value }
  | none => row

/-- Gives the columns other names. The index stays. -/
def rename (row : Row) (names : List String) : Row :=
  { row with header := { row.header with names } }

def push (row : Row) (value : Value) : Row := { row with values := row.values ++ [value] }

/-- The cells with their names, in column order, as far as there are both. -/
def cells (row : Row) : List (String × Value) := row.header.names.zip row.values

end Row

/-- Rows in which a cell can be read and changed by the name of its column. -/
class Cells (row : Type) where
  cell? : row → String → Option Value
  put : row → String → Value → row

instance : Cells Row := ⟨Row.get?, Row.put⟩

theorem lastPosition?_eq_none_iff (name : String) (names : List String) :
    lastPosition? name names = none ↔ name ∉ names := by
  induction names with
  | nil => simp [lastPosition?]
  | cons first rest ih => grind [lastPosition?]

theorem lastPosition?_eq_some_iff (name : String) (names : List String) (position : Nat) :
    lastPosition? name names = some position ↔
      names[position]? = some name ∧
        ∀ later : Nat, position < later → names[later]? ≠ some name := by
  induction names generalizing position with
  | nil => simp [lastPosition?]
  | cons first rest ih =>
      unfold lastPosition?
      cases found : lastPosition? name rest with
      | some place =>
          have here := (ih place).mp found
          simp only [Option.some.injEq]
          constructor
          · rintro rfl
            refine ⟨by simpa using here.1, fun later after => ?_⟩
            obtain ⟨later, rfl⟩ : ∃ n, later = n + 1 := ⟨later - 1, by omega⟩
            simpa using here.2 later (by omega)
          · rintro ⟨held, last⟩
            rcases Nat.lt_trichotomy position (place + 1) with before | same | after
            · exact absurd (by simpa using here.1) (last (place + 1) before)
            · exact same.symm
            · obtain ⟨position, rfl⟩ : ∃ n, position = n + 1 := ⟨position - 1, by omega⟩
              exact absurd (by simpa using held) (here.2 position (by omega))
      | none =>
          have absent (place : Nat) : rest[place]? ≠ some name := fun held =>
            (lastPosition?_eq_none_iff name rest).mp found (List.mem_of_getElem? held)
          cases position with
          | zero =>
              suffices ∀ later : Nat, 0 < later → (first :: rest)[later]? ≠ some name by
                simpa using fun _ => this
              intro later after
              obtain ⟨later, rfl⟩ : ∃ n, later = n + 1 := ⟨later - 1, by omega⟩
              simpa using absent later
          | succ position => simp [absent position]

end SealedColumns
