import SealedColumns.Row.Shape

/-!
Rows as cells in order, of which a name leads to one at most. Changing the cell under a name
changes that cell and nothing else, neither the names nor where they lead. So if no two names
lead to one cell, a changed cell reads as it was changed and all others as they were. This
is so of rows in either shape as they are made from names and values.
-/

namespace SealedColumns

/-- Whether there is a cell under the name that is not blank. -/
def Cells.shows {row : Type} [Cells row] (cells : row) (column : String) : Bool :=
  (Cells.cell? cells column).map Value.isBlank == some false

/-- Laws of reading and changing cells, for the rows that are `valid`. -/
structure Cells.Laws {row : Type} [Cells row] (valid : row → Prop) : Prop where
  valid_put : ∀ {cells : row} (column value), valid cells → valid (Cells.put cells column value)
  cell?_put_same : ∀ {cells : row} {column : String} {old : Value} (value), valid cells →
    Cells.cell? cells column = some old →
      Cells.cell? (Cells.put cells column value) column = some value
  cell?_put_other : ∀ {cells : row} {column other : String} (value), valid cells →
    other ≠ column → Cells.cell? (Cells.put cells column value) other = Cells.cell? cells other

theorem Cells.shows_iff {row : Type} [Cells row] (cells : row) (column : String) :
    Cells.shows cells column = true ↔
      ∃ value, Cells.cell? cells column = some value ∧ value.isBlank = false := by
  simp [shows]

theorem Cells.Laws.filter_shows_put {row : Type} [Cells row] {valid : row → Prop} {cells : row}
    {columns : List String} {column : String} (laws : Cells.Laws valid) (coherent : valid cells)
    (absent : column ∉ columns) (value : Value) :
    columns.filter (Cells.shows (Cells.put cells column value)) =
      columns.filter (Cells.shows cells) := by
  apply List.filter_congr
  intro other member
  have differ : other ≠ column := by
    rintro rfl
    exact absent member
  rw [Cells.shows, laws.cell?_put_other value coherent differ, Cells.shows]

/-- Rows whose cells stand in order, with the place to which a name leads. -/
class OrderedCells (row : Type) [Cells row] where
  names : row → List String
  values : row → List Value
  place? : row → String → Option Nat
  cell?_eq : ∀ cells name,
    Cells.cell? cells name = (place? cells name).bind fun place => (values cells)[place]?
  names_put : ∀ cells column value, names (Cells.put cells column value) = names cells
  place?_put : ∀ cells column value name,
    place? (Cells.put cells column value) name = place? cells name
  values_put : ∀ cells column value, values (Cells.put cells column value) =
    match place? cells column with
    | some place => (values cells).set place value
    | none => values cells

namespace OrderedCells
variable {row : Type} [Cells row] [OrderedCells row] {cells : row} {column : String}

/-- No two names lead to one cell. -/
def Apart (cells : row) : Prop :=
  ∀ name other place, place? cells name = some place → place? cells other = some place →
    name = other

theorem exists_place {value : Value} (found : Cells.cell? cells column = some value) :
    ∃ place, place? cells column = some place ∧ (values cells)[place]? = some value := by
  rw [cell?_eq] at found
  exact Option.bind_eq_some_iff.mp found

theorem getElem?_values_put {place : Nat} {old : Value} (led : place? cells column = some place)
    (held : (values cells)[place]? = some old) (value : Value) (other : Nat) :
    (values (Cells.put cells column value))[other]? =
      if other = place then some value else (values cells)[other]? := by
  rw [values_put, led]
  dsimp only
  by_cases same : other = place
  · rw [if_pos same, same, List.getElem?_set_self (List.getElem?_eq_some_iff.mp held).1]
  · rw [if_neg same, List.getElem?_set_ne (Ne.symm same)]

theorem laws_of_apart {valid : row → Prop} (apart : ∀ cells, valid cells → Apart cells)
    (valid_put : ∀ cells column value, valid cells → valid (Cells.put cells column value)) :
    Cells.Laws valid where
  valid_put := fun column value => valid_put _ column value
  cell?_put_same := by
    intro cells column old value _ found
    obtain ⟨place, led, held⟩ := exists_place found
    rw [cell?_eq, place?_put, led, Option.bind_some, getElem?_values_put led held, if_pos rfl]
  cell?_put_other := by
    intro cells column other value coherent differ
    rw [cell?_eq, cell?_eq, place?_put]
    cases there : place? cells other with
    | none => rfl
    | some position =>
        rw [Option.bind_some, Option.bind_some, values_put]
        cases here : place? cells column with
        | none => rfl
        | some place =>
            -- Both names found a cell; it would be one if the places were.
            have elsewhere : place ≠ position := by
              rintro rfl
              exact differ (apart cells coherent other column place there here)
            exact List.getElem?_set_ne elsewhere

theorem Apart.put (apart : Apart cells) (column : String) (value : Value) :
    Apart (Cells.put cells column value) := by
  intro name other place here there
  rw [place?_put] at here there
  exact apart name other place here there

theorem laws : Cells.Laws (Apart : row → Prop) :=
  laws_of_apart (fun _ apart => apart) fun _ column value apart => apart.put column value

end OrderedCells

open OrderedCells (Apart laws_of_apart)

/-! Places of names. -/

theorem lastPosition?_inj {names : List String} {name other : String} {position : Nat}
    (here : lastPosition? name names = some position)
    (there : lastPosition? other names = some position) : name = other := by
  have first := ((lastPosition?_eq_some_iff name names position).mp here).1
  have second := ((lastPosition?_eq_some_iff other names position).mp there).1
  exact Option.some.inj (first.symm.trans second)

theorem firstPosition?_eq_none {names : List String} {name : String}
    (absent : name ∉ names) : firstPosition? name names = none := by
  induction names with
  | nil => rfl
  | cons first rest ih =>
      have differ : first ≠ name := (List.ne_of_not_mem_cons absent).symm
      rw [firstPosition?, if_neg differ, ih (List.not_mem_of_not_mem_cons absent)]
      rfl

theorem getElem?_of_firstPosition? {name : String} {names : List String} {position : Nat}
    (found : firstPosition? name names = some position) : names[position]? = some name := by
  induction names generalizing position with
  | nil => contradiction
  | cons first rest ih =>
      rw [firstPosition?] at found
      by_cases here : first = name
      · rw [if_pos here] at found
        obtain rfl := Option.some.inj found
        exact congrArg some here
      · rw [if_neg here] at found
        obtain ⟨later, there, rfl⟩ := Option.map_eq_some_iff.mp found
        exact ih there

/-! Rows with columns in order. -/

namespace Header

/-- No two names lead to one cell. -/
def Unaliased (header : Header) : Prop :=
  ∀ name other position, header.position? name = some position →
    header.position? other = some position → name = other

theorem position?_ofNames (names : List String) (name : String) :
    (ofNames names).position? name = lastPosition? name names := by
  unfold position? ofNames
  dsimp only
  cases found : lastPosition? name names with
  | some place => rfl
  | none => exact firstPosition?_eq_none ((lastPosition?_eq_none_iff name names).mp found)

/-- In a header made of names, equal names share a cell and other names do not. -/
theorem unaliased_ofNames (names : List String) : (ofNames names).Unaliased := by
  intro name other place here there
  rw [position?_ofNames] at here there
  exact lastPosition?_inj here there

end Header

namespace Row

theorem header_put (row : Row) (name : String) (value : Value) :
    (row.put name value).header = row.header := by
  unfold put
  split <;> rfl

theorem position?_put (row : Row) (name : String) (value : Value) (other : String) :
    (row.put name value).position? other = row.position? other := by
  rw [position?, position?, header_put]

instance : OrderedCells Row where
  names row := row.header.names
  values := values
  place? := position?
  cell?_eq _ _ := rfl
  names_put row column value := congrArg Header.names (row.header_put column value)
  place?_put := position?_put
  values_put := by
    intro row column value
    change (row.put column value).values = _
    unfold put
    cases row.position? column <;> rfl

theorem apart_ofNames (names : List String) (values : List Value) :
    Apart (ofNames names values) := Header.unaliased_ofNames names

theorem laws : Cells.Laws fun row : Row => row.header.Unaliased := OrderedCells.laws

end Row

/-! Rows of named fields. -/

namespace Fields

def names (fields : Fields) : List String := fields.entries.map (·.1)

def values (fields : Fields) : List Value := fields.entries.map (·.2)

theorem firstNamed_eq {α : Type} (name : String) (entries : List (String × α)) :
    firstNamed name entries =
      (firstPosition? name (entries.map (·.1))).bind fun place => (entries.map (·.2))[place]? := by
  induction entries with
  | nil => rfl
  | cons first rest ih =>
      rw [firstNamed, List.map_cons, firstPosition?]
      by_cases here : first.1 = name
      · rw [if_pos here, if_pos here]
        rfl
      · rw [if_neg here, if_neg here, ih]
        cases firstPosition? name (rest.map (·.1)) <;> rfl

theorem names_put (fields : Fields) (name : String) (value : Value) :
    (fields.put name value).names = fields.names := by
  change (putFirst name value fields.entries).map (·.1) = fields.entries.map (·.1)
  induction fields.entries with
  | nil => rfl
  | cons first rest ih =>
      rw [putFirst]
      by_cases here : first.1 = name
      · rw [if_pos here]
        rfl
      · rw [if_neg here, List.map_cons, ih]
        rfl

theorem values_put (fields : Fields) (name : String) (value : Value) :
    (fields.put name value).values =
      match firstPosition? name fields.names with
      | some place => fields.values.set place value
      | none => fields.values := by
  change (putFirst name value fields.entries).map (·.2) =
    match firstPosition? name (fields.entries.map (·.1)) with
    | some place => (fields.entries.map (·.2)).set place value
    | none => fields.entries.map (·.2)
  induction fields.entries with
  | nil => rfl
  | cons first rest ih =>
      rw [putFirst, List.map_cons, firstPosition?]
      by_cases here : first.1 = name
      · rw [if_pos here, if_pos here]
        rfl
      · rw [if_neg here, if_neg here, List.map_cons, ih]
        cases firstPosition? name (rest.map (·.1)) <;> rfl

instance : OrderedCells Fields where
  names := names
  values := values
  place? fields name := firstPosition? name fields.names
  cell?_eq fields name := firstNamed_eq name fields.entries
  names_put := names_put
  place?_put fields column value name :=
    congrArg (firstPosition? name) (fields.names_put column value)
  values_put := values_put

theorem apart (fields : Fields) : Apart fields := by
  intro name other place here there
  exact Option.some.inj
    ((getElem?_of_firstPosition? here).symm.trans (getElem?_of_firstPosition? there))

theorem laws : Cells.Laws fun _ : Fields => True :=
  laws_of_apart (fun fields _ => fields.apart) fun _ _ _ _ => trivial

end Fields

/-! Rows in either shape. -/

namespace ShapedRow

def Unaliased : ShapedRow → Prop
  | columns row => row.header.Unaliased
  | fields _ => True

theorem unaliased_ofRow (kind : RowKind) (names : List String) (values : List Value) :
    (ofRow kind (.ofNames names values)).Unaliased := by
  cases kind with
  | columns => exact Header.unaliased_ofNames names
  | fields => trivial

/-- The cells a row shows, in order. -/
def shown : ShapedRow → List Value
  | columns row => row.values
  | fields cells => cells.entries.map (·.2)

instance : OrderedCells ShapedRow where
  names
    | columns row => row.header.names
    | fields cells => cells.names
  values := shown
  place?
    | columns row, name => row.position? name
    | fields cells, name => firstPosition? name cells.names
  cell?_eq
    | columns row, name => OrderedCells.cell?_eq row name
    | fields cells, name => OrderedCells.cell?_eq cells name
  names_put
    | columns row, column, value => OrderedCells.names_put row column value
    | fields cells, column, value => OrderedCells.names_put cells column value
  place?_put
    | columns row, column, value, name => OrderedCells.place?_put row column value name
    | fields cells, column, value, name => OrderedCells.place?_put cells column value name
  values_put
    | columns row, column, value => OrderedCells.values_put row column value
    | fields cells, column, value => OrderedCells.values_put cells column value

theorem apart_columns {row : Row} (apart : Apart row) : Apart (columns row) := apart

theorem apart_fields (cells : Fields) : Apart (fields cells) := cells.apart

theorem Unaliased.apart {shaped : ShapedRow} (unaliased : shaped.Unaliased) : Apart shaped := by
  cases shaped with
  | columns row => exact apart_columns unaliased
  | fields cells => exact apart_fields cells

theorem laws : Cells.Laws Unaliased := by
  apply laws_of_apart fun _ unaliased => unaliased.apart
  intro shaped column value unaliased
  cases shaped with
  | columns row => exact Row.laws.valid_put column value unaliased
  | fields cells => trivial

end ShapedRow

end SealedColumns
