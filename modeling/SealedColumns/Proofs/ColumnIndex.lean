import SealedColumns.Proofs.Cells
import SealedColumns.Proofs.Grouping

/-!
The index under which a row finds its columns. It is made from names once and then handed on: a
result set shares it with the rows it makes and takes it over from the first row that is added, and
the rest of a grouped row gets one of its own. However rows are built in these ways, the index of
each is that of the names it bears. So a name leads to its last column, and the search among
the names themselves, which would find the first, never decides.
-/

namespace SealedColumns

/-- The position is the last at which the name stands. -/
def LastColumn (name : String) (names : List String) (position : Nat) : Prop :=
  names[position]? = some name ∧ ∀ later : Nat, position < later → names[later]? ≠ some name

/-- The index was made from the names that are borne. -/
def Header.Coherent (header : Header) : Prop := header.indexed = header.names

theorem Header.Coherent.eq_ofNames {header : Header} (coherent : header.Coherent) :
    header = .ofNames header.names := by
  cases header with
  | mk names indexed =>
      cases coherent
      rfl

/-! Result sets. -/

/-- The index that is shared and those of the rows are made from the names they stand for. -/
structure ResultSet.Coherent (results : ResultSet) : Prop where
  shared : ∀ header, results.header = some header → header.Coherent
  rows : ∀ row ∈ results.rows, row.header.Coherent

namespace ResultSet.Coherent
variable {results : ResultSet}

theorem empty : ResultSet.empty.Coherent where
  shared header shared := by cases shared
  rows row member := absurd member List.not_mem_nil

theorem setNames (coherent : results.Coherent) (names : List String) :
    (results.setNames names).Coherent := by
  refine ⟨fun header shared => ?_, coherent.rows⟩
  cases shared
  rfl

theorem addValues (coherent : results.Coherent) (values : List Value) :
    (results.addValues values).Coherent := by
  constructor
  · rw [header_addValues]
    exact coherent.shared
  · intro row member
    rcases mem_rows_addValues member with old | ⟨header, shared, rfl⟩
    · exact coherent.rows row old
    · exact coherent.shared header shared

theorem addRow (coherent : results.Coherent) {row : Row} (own : row.header.Coherent) :
    (results.addRow row).Coherent := by
  constructor
  · intro header shared
    cases Option.some.inj shared
    cases found : results.header with
    | none => exact own
    | some earlier => exact coherent.shared earlier found
  · intro other member
    rcases mem_rows_addRow member with old | rfl
    · exact coherent.rows other old
    · exact own

end ResultSet.Coherent

/-- The rest of a grouped row is made from names. -/
theorem header_of_mem_groups {results : ResultSet} {groups : List KeyedRows} {group : KeyedRows}
    {row : Row} (shaped : results.shaped ⟨.columns, true⟩ = .grouped groups)
    (inside : group ∈ groups) (member : .columns row ∈ group.rows) : row.header.Coherent := by
  cases named : results.names? with
  | none =>
      rw [ResultSet.shaped, named] at shaped
      cases shaped
      contradiction
  | some names =>
      rw [ResultSet.shaped_grouped named rfl] at shaped
      cases shaped
      rw [(grouping_groupRows .columns (names.drop 1) results.rows).gathered group inside] at member
      obtain ⟨whole, -, same⟩ := List.mem_map.mp member
      cases same
      rfl

/-! Rows as they are built. -/

mutual

/-- Rows made from names and values, kept in a result set or left of one that is grouped, also
    after cells of them were changed. -/
inductive Row.Built : Row → Prop where
  | ofNames (names : List String) (values : List Value) : Row.Built (.ofNames names values)
  | kept {results : ResultSet} {row : Row} (set : ResultSet.Built results)
      (member : row ∈ results.rows) : Row.Built row
  | nested {results : ResultSet} {groups : List KeyedRows} {group : KeyedRows} {row : Row}
      (set : ResultSet.Built results) (shaped : results.shaped ⟨.columns, true⟩ = .grouped groups)
      (inside : group ∈ groups) (member : .columns row ∈ group.rows) : Row.Built row
  | changed {row : Row} (name : String) (value : Value) (before : Row.Built row) :
      Row.Built (row.put name value)

/-- Result sets filled in any order, with rows built in any of these ways. -/
inductive ResultSet.Built : ResultSet → Prop where
  | empty : ResultSet.Built .empty
  | named {results : ResultSet} (names : List String) (before : ResultSet.Built results) :
      ResultSet.Built (results.setNames names)
  | values {results : ResultSet} (values : List Value) (before : ResultSet.Built results) :
      ResultSet.Built (results.addValues values)
  | row {results : ResultSet} {row : Row} (before : ResultSet.Built results)
      (built : Row.Built row) : ResultSet.Built (results.addRow row)

end

/-- One induction over rows and result sets, as each is built from the other. -/
theorem Row.Built.coherent {row : Row} (built : row.Built) : row.header.Coherent := by
  refine @Row.Built.rec (fun row _ => row.header.Coherent) (fun results _ => results.Coherent)
    ?ofNames ?kept ?nested ?changed ?empty ?named ?values ?row row built
  case ofNames => exact fun _ _ => rfl
  case kept => exact fun _ member coherent => coherent.rows _ member
  case nested => exact fun _ shaped inside member _ => header_of_mem_groups shaped inside member
  case changed =>
    intro row name value before coherent
    rwa [Row.header_put]
  case empty => exact .empty
  case named => exact fun names _ coherent => coherent.setNames names
  case values => exact fun values _ coherent => coherent.addValues values
  case row => exact fun _ _ coherent own => coherent.addRow own

/-! Where a name leads. -/

theorem lastColumn_iff {name : String} {names : List String} {position : Nat} :
    lastPosition? name names = some position ↔ LastColumn name names position :=
  lastPosition?_eq_some_iff name names position

theorem Header.Coherent.position? {header : Header} (coherent : header.Coherent) (name : String) :
    header.position? name = lastPosition? name header.names := by
  rw [coherent.eq_ofNames]
  exact position?_ofNames header.names name

section Row
variable {row : Row} {name : String}

theorem Row.position?_eq_some_iff (coherent : row.header.Coherent) {position : Nat} :
    row.position? name = some position ↔ LastColumn name row.header.names position := by
  rw [Row.position?, coherent.position?]
  exact lastColumn_iff

theorem Row.position?_eq_none_iff (coherent : row.header.Coherent) :
    row.position? name = none ↔ name ∉ row.header.names := by
  rw [Row.position?, coherent.position?]
  exact lastPosition?_eq_none_iff name row.header.names

theorem Row.get?_eq_some_iff (coherent : row.header.Coherent) {value : Value} :
    row.get? name = some value ↔
      ∃ position, LastColumn name row.header.names position ∧ row.values[position]? = some value := by
  rw [Row.get?, Option.bind_eq_some_iff]
  simp only [Row.position?_eq_some_iff coherent]

theorem Row.get?_eq_none_iff (coherent : row.header.Coherent) :
    row.get? name = none ↔ name ∉ row.header.names
      ∨ ∃ position, LastColumn name row.header.names position ∧ row.values[position]? = none := by
  rw [Row.get?]
  cases led : row.position? name with
  | none =>
      have absent := (Row.position?_eq_none_iff coherent).mp led
      exact iff_of_true rfl (Or.inl absent)
  | some position =>
      have last := (Row.position?_eq_some_iff coherent).mp led
      have stands : name ∈ row.header.names := List.mem_of_getElem? last.1
      rw [Option.bind_some]
      constructor
      · exact fun missing => Or.inr ⟨position, last, missing⟩
      · rintro (absent | ⟨other, there, missing⟩)
        · exact absurd stands absent
        · -- There is one last column of a name.
          have same := (Row.position?_eq_some_iff coherent).mpr there
          rw [led] at same
          cases same
          exact missing

theorem Row.put_of_position? {position : Nat} (led : row.position? name = some position)
    (value : Value) : row.put name value = { row with values := row.values.set position value } := by
  rw [Row.put, led]

theorem exists_ne_value (old : Value) : ∃ value, value ≠ old := by
  cases old with
  | null => exact ⟨.int 0, nofun⟩
  | _ => exact ⟨.null, nofun⟩

/-- A cell is changed if and only if it can be read. -/
theorem Row.put_eq_self_iff : (∀ value, row.put name value = row) ↔ row.get? name = none := by
  rw [Row.get?]
  cases led : row.position? name with
  | none =>
      refine iff_of_true (fun value => ?_) rfl
      rw [Row.put, led]
  | some position =>
      rw [Option.bind_some]
      constructor
      · intro stays
        cases held : row.values[position]? with
        | none => rfl
        | some old =>
            obtain ⟨value, other⟩ := exists_ne_value old
            have same := congrArg (·.values[position]?) (stays value)
            have inside := (List.getElem?_eq_some_iff.mp held).1
            rw [Row.put_of_position? led] at same
            simp only [List.getElem?_set_self inside, held, Option.some.injEq] at same
            exact absurd same other
      · intro missing value
        rw [Row.put_of_position? led,
          List.set_eq_of_length_le (List.getElem?_eq_none_iff.mp missing)]

end Row

/-- In a row that is built, the index alone decides where a name leads, which is to its last column
    among the row's own. There it is read and changed, and nothing is read or changed if and only
    if the name does not stand in the row or there is no value at its last column. -/
theorem Row.Built.leads_to_last_column {row : Row} (built : row.Built) (name : String) :
    row.position? name = lastPosition? name row.header.indexed
    ∧ (∀ position, row.position? name = some position ↔
      LastColumn name row.header.names position)
    ∧ (∀ value, row.get? name = some value ↔
      ∃ position, LastColumn name row.header.names position
        ∧ row.values[position]? = some value)
    ∧ (row.get? name = none ↔ name ∉ row.header.names
      ∨ ∃ position, LastColumn name row.header.names position ∧ row.values[position]? = none)
    ∧ (∀ position, LastColumn name row.header.names position → ∀ value,
      row.put name value = { row with values := row.values.set position value })
    ∧ ((∀ value, row.put name value = row) ↔ row.get? name = none) := by
  have coherent := built.coherent
  refine ⟨?_, fun position => Row.position?_eq_some_iff coherent,
    fun value => Row.get?_eq_some_iff coherent, Row.get?_eq_none_iff coherent, ?_,
    Row.put_eq_self_iff⟩
  · rw [Row.position?, coherent.position?, coherent]
  · intro position last value
    exact Row.put_of_position? ((Row.position?_eq_some_iff coherent).mpr last) value

/-- Pairs of mentors. The last row was brought under other names and has one mentor only. -/
def mentors : ResultSet :=
  ((ResultSet.empty.setNames ["team", "mentor", "mentor"]).addValues
    [.text "ops", .text "Ada", .text "Bob"]).addRow (.ofNames ["mentor"] [.text "eng", .text "Cid"])

def loneMentor : Row := .ofNames ["mentor", "mentor"] [.text "Cid"]

theorem built_mentors : mentors.Built :=
  .row (.values _ (.named _ .empty)) (.ofNames _ _)

/-- The mentor stands under the first of two equal names, and is not found. -/
theorem loneMentor_not_found :
    loneMentor.Built ∧ loneMentor.cells = [("mentor", .text "Cid")]
      ∧ loneMentor.get? "mentor" = none := by
  have nested : loneMentor.Built :=
    .nested built_mentors rfl (List.mem_cons_of_mem _ List.mem_cons_self) List.mem_cons_self
  obtain ⟨-, -, -, missing, -, -⟩ := nested.leads_to_last_column "mentor"
  refine ⟨nested, rfl, missing.mpr (Or.inr ⟨1, ⟨rfl, ?_⟩, rfl⟩)⟩
  intro later behind
  rw [loneMentor, List.getElem?_eq_none (by exact behind)]
  nofun

end SealedColumns
