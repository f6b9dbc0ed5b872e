import SealedColumns.Proofs.Grouping

/-!
Result sets as they are filled: names are set, values are added under the names of the set, and
rows are added that bring names of their own. Rows are counted as they come, and there are
none before there are names. Each row keeps the names it came under, while rests of grouped
rows are labelled with the names that the set bears in the end: those set last or, if none were
set, those of the first row that brought some. The two agree if all names that are set or
brought agree behind the first column, and nothing makes them do so.
-/

namespace SealedColumns

/-- A change to a result set. -/
inductive Filling where
  | names (names : List String)
  | values (values : List Value)
  | row (names : List String) (values : List Value)

namespace Filling

/-- The names that it sets for the rows to come. -/
def set? : Filling → Option (List String)
  | .names given => some given
  | _ => none

/-- The names that a row brings. -/
def brought? : Filling → Option (List String)
  | .row own _ => some own
  | _ => none

/-- The names that it comes with, in either way. -/
def names? (filling : Filling) : Option (List String) := filling.set?.or filling.brought?

end Filling

namespace ResultSet

def fill (results : ResultSet) : Filling → ResultSet
  | .names names => results.setNames names
  | .values values => results.addValues values
  | .row names values => results.addRow (.ofNames names values)

def filled (fillings : List Filling) : ResultSet := fillings.foldl fill empty

theorem filled_append_singleton (before : List Filling) (last : Filling) :
    filled (before ++ [last]) = (filled before).fill last := by
  rw [filled, List.foldl_append]
  rfl

/-- What every step keeps, a run keeps. -/
theorem filled_keeps {holds : ResultSet → Prop} (start : holds empty) {fillings : List Filling}
    (keeps : ∀ results, ∀ filling ∈ fillings, holds results → holds (results.fill filling)) :
    holds (filled fillings) := by
  induction fillings using List.reverseRecOn with
  | nil => exact start
  | append_singleton before last ih =>
      rw [filled_append_singleton]
      apply keeps (filled before) last (by simp)
      exact ih fun results filling member => keeps results filling (by simp [member])

/-! Names and counts. -/

theorem names?_addRow (results : ResultSet) (row : Row) :
    (results.addRow row).names? = results.names?.or (some row.header.names) := by
  unfold names? addRow
  cases results.header <;> rfl

theorem names?_addValues (results : ResultSet) (values : List Value) :
    (results.addValues values).names? = results.names? :=
  congrArg (Option.map Header.names) (header_addValues results values)

theorem names?_filled (fillings : List Filling) :
    (filled fillings).names? =
      (fillings.reverse.findSome? Filling.set?).or (fillings.findSome? Filling.brought?) := by
  induction fillings using List.reverseRecOn with
  | nil => rfl
  | append_singleton before last ih =>
      rw [filled_append_singleton, List.reverse_append, List.findSome?_append,
        List.findSome?_append]
      cases last with
      | names given => rfl
      | values values =>
          rw [fill, names?_addValues, ih]
          simp [Filling.set?, Filling.brought?]
      | row own values =>
          rw [fill, names?_addRow, ih, Option.or_assoc]
          rfl

/-- Rows are counted, and there are none without names. -/
structure Sound (results : ResultSet) : Prop where
  affected_eq : results.affected = results.rows.length
  rows_eq_nil : results.names? = none → results.rows = []

theorem Sound.fill {results : ResultSet} (sound : results.Sound) (filling : Filling) :
    (results.fill filling).Sound := by
  cases filling with
  | names names => exact ⟨sound.affected_eq, nofun⟩
  | values values =>
      rw [ResultSet.fill]
      cases named : results.header with
      | none =>
          rw [addValues, named]
          exact sound
      | some header =>
          rw [addValues, named]
          refine ⟨?_, nofun⟩
          rw [List.length_append, sound.affected_eq]
          rfl
  | row names values =>
      refine ⟨?_, nofun⟩
      rw [ResultSet.fill, addRow, List.length_append, sound.affected_eq]
      rfl

theorem sound_filled (fillings : List Filling) : (filled fillings).Sound :=
  filled_keeps ⟨rfl, fun _ => rfl⟩ fun _ filling _ sound => sound.fill filling

/-- Without names there is nothing to group. -/
theorem Sound.shaped_grouped {results : ResultSet} (sound : results.Sound) (kind : RowKind) :
    results.shaped ⟨kind, true⟩ =
      .grouped (groupRows kind ((results.names?.getD []).drop 1) results.rows) := by
  cases named : results.names? with
  | none =>
      rw [shaped, named, sound.rows_eq_nil named]
      rfl
  | some names => exact ResultSet.shaped_grouped named rfl

/-! Labels. -/

/-- All names agree behind the first column, those of the set and those of its rows. -/
structure Uniform (shared : List String) (results : ResultSet) : Prop where
  names : ∀ names, results.names? = some names → names.drop 1 = shared
  rows : ∀ row ∈ results.rows, row.header.names.drop 1 = shared

theorem Uniform.fill {shared : List String} {results : ResultSet}
    (uniform : results.Uniform shared) (filling : Filling)
    (shares : ∀ given, filling.names? = some given → given.drop 1 = shared) :
    (results.fill filling).Uniform shared := by
  cases filling with
  | names given =>
      refine ⟨fun names named => ?_, uniform.rows⟩
      obtain rfl : given = names := Option.some.inj named
      exact shares given rfl
  | values values =>
      refine ⟨fun names named => uniform.names names ?_, ?_⟩
      · rwa [ResultSet.fill, names?_addValues] at named
      · intro row member
        rcases mem_rows_addValues member with old | ⟨header, shared, rfl⟩
        · exact uniform.rows row old
        · exact uniform.names header.names (congrArg (Option.map Header.names) shared)
  | row own values =>
      constructor
      · intro names named
        rw [ResultSet.fill, names?_addRow] at named
        cases found : results.names? with
        | none =>
            rw [found] at named
            obtain rfl : own = names := Option.some.inj named
            exact shares own rfl
        | some earlier =>
            rw [found] at named
            obtain rfl : earlier = names := Option.some.inj named
            exact uniform.names earlier found
      · intro row member
        rcases mem_rows_addRow member with old | rfl
        · exact uniform.rows row old
        · exact shares own rfl

theorem uniform_filled {shared : List String} {fillings : List Filling}
    (shares : ∀ filling ∈ fillings, ∀ given, filling.names? = some given → given.drop 1 = shared) :
    (filled fillings).Uniform shared := by
  apply filled_keeps ⟨nofun, nofun⟩
  intro results filling member uniform
  exact uniform.fill filling (shares filling member)

end ResultSet

/-- What the row holds behind its first cell, the rest holds under the same names. -/
def Row.LabelledIn (row rest : Row) : Prop :=
  ∀ position name value, row.cells[position + 1]? = some (name, value) →
    rest.cells[position]? = some (name, value)

theorem Row.labelledIn_nested_iff (row : Row) (names : List String) :
    row.LabelledIn (row.nested (names.drop 1)) ↔
      ∀ position, 0 < position → position < row.cells.length →
        names[position]? = row.header.names[position]? := by
  constructor
  · intro labelled position behind inside
    obtain ⟨position, rfl⟩ : ∃ n, position = n + 1 := ⟨position - 1, by omega⟩
    obtain ⟨⟨name, value⟩, found⟩ : ∃ cell, row.cells[position + 1]? = some cell :=
      ⟨row.cells[position + 1], List.getElem?_eq_getElem inside⟩
    have there := (List.getElem?_zip_eq_some.mp (labelled position name value found)).1
    have here := (List.getElem?_zip_eq_some.mp found).1
    rw [here, ← there, nested, ofNames, Header.ofNames, List.getElem?_drop, Nat.add_comm]
  · intro same position name value found
    have inside := (List.getElem?_eq_some_iff.mp found).1
    obtain ⟨bears, held⟩ := List.getElem?_zip_eq_some.mp found
    apply List.getElem?_zip_eq_some.mpr
    constructor
    · rw [nested, ofNames, Header.ofNames, List.getElem?_drop, Nat.add_comm,
        same (position + 1) (Nat.succ_pos position) inside]
      exact bears
    · rw [nested, ofNames, List.getElem?_drop, Nat.add_comm]
      exact held

theorem Row.labelledIn_nested {row : Row} {names : List String}
    (same : names.drop 1 = row.header.names.drop 1) :
    row.LabelledIn (row.nested (names.drop 1)) := by
  apply (row.labelledIn_nested_iff names).mpr
  intro position behind _
  obtain ⟨position, rfl⟩ : ∃ n, position = 1 + n := ⟨position - 1, by omega⟩
  rw [← List.getElem?_drop, same, List.getElem?_drop]

/-- A flat row bears the names it came under, and the rest of a grouped row those that the set
    bears in the end. So the rest is labelled as the row is if and only if these names agree
    behind the first column, as far as the row has names and values. They do if all names that
    were set or brought agree there. -/
theorem labelled_alike_iff (fillings : List Filling) :
    let results := ResultSet.filled fillings
    let names := ((fillings.reverse.findSome? Filling.set?).or
      (fillings.findSome? Filling.brought?)).getD []
    let rest (row : Row) : Row := .ofNames (names.drop 1) (row.values.drop 1)
    results.shaped ⟨.columns, false⟩ = .flat (results.rows.map .columns)
    ∧ (∃ groups, results.shaped ⟨.columns, true⟩ = .grouped groups
      ∧ Grouping (fun row => .columns (rest row)) results.rows groups)
    ∧ (∀ row ∈ results.rows, row.LabelledIn (rest row) ↔
      ∀ position, 0 < position → position < row.cells.length →
        names[position]? = row.header.names[position]?)
    ∧ ∀ shared,
      (∀ filling ∈ fillings, ∀ given, filling.names? = some given → given.drop 1 = shared) →
        ∀ row ∈ results.rows, row.LabelledIn (rest row) := by
  intro results names rest
  have sound := ResultSet.sound_filled fillings
  have named : results.names?.getD [] = names :=
    congrArg (·.getD []) (ResultSet.names?_filled fillings)
  refine ⟨rfl, ?_, fun row _ => row.labelledIn_nested_iff names, ?_⟩
  · refine ⟨_, sound.shaped_grouped .columns, ?_⟩
    rw [named]
    exact grouping_groupRows .columns (names.drop 1) results.rows
  · intro shared shares row member
    have uniform := ResultSet.uniform_filled shares
    apply Row.labelledIn_nested
    rw [uniform.rows row member, ← named]
    cases found : results.names? with
    | none =>
        rw [sound.rows_eq_nil found] at member
        contradiction
    | some given => exact uniform.names given found

/-- Rows of departments, one of them brought under another name for the department. -/
def staff : List Filling :=
  [.names ["dept", "ssn"], .values [.text "eng", .text "enc:1"],
    .row ["unit", "ssn"] [.text "ops", .text "enc:2", .text "spare"]]

theorem staff_labelled_alike :
    let rows := (ResultSet.filled staff).rows
    rows.map (·.header.names) = [["dept", "ssn"], ["unit", "ssn"]]
      ∧ ∀ row ∈ rows, row.LabelledIn (.ofNames ["ssn"] (row.values.drop 1)) := by
  intro rows
  obtain ⟨-, -, -, alike⟩ := labelled_alike_iff staff
  refine ⟨rfl, alike ["ssn"] ?_⟩
  intro filling member given named
  simp only [staff, List.mem_cons, List.not_mem_nil, or_false] at member
  rcases member with rfl | rfl | rfl
  · obtain rfl := Option.some.inj named
    rfl
  · contradiction
  · obtain rfl := Option.some.inj named
    rfl

/-- A row brought under another name loses it when it is grouped, and with it its decryption. -/
def relabelled : List Filling :=
  [.names ["dept", "note"], .row ["dept", "ssn"] [.text "eng", .text "enc:1"]]

theorem label_lost_in_group :
    let results := ResultSet.filled relabelled
    let flat := openRowSet (some (Sample.tag none)) ["ssn"] (results.shaped ⟨.columns, false⟩)
    let grouped := openRowSet (some (Sample.tag none)) ["ssn"] (results.shaped ⟨.columns, true⟩)
    results.rows = [.ofNames ["dept", "ssn"] [.text "eng", .text "enc:1"]]
      ∧ flat.result = .ok ()
      ∧ flat.row = .flat [.columns (.ofNames ["dept", "ssn"] [.text "eng", .text "1"])]
      ∧ grouped.result = .ok ()
      ∧ grouped.row =
        .grouped [⟨.text "eng", [.columns (.ofNames ["note"] [.text "enc:1"])]⟩] :=
  ⟨rfl, rfl, rfl, rfl, rfl⟩

end SealedColumns
