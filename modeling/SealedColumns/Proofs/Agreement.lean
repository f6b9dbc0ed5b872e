import SealedColumns.Proofs.Grouping

/-!
Rows that read the same under the columns to decrypt are decrypted the same way, whatever
their shapes and whatever else they hold. A row without its first cell reads as the whole
row does under every other column, so that it makes no difference to the cells of ordinary
columns whether rows are grouped before they are decrypted.
-/

namespace SealedColumns

/-! Agreement under names. -/

section Agree
variable {row other : Type} [Cells row] [Cells other] {valid : row → Prop} {sound : other → Prop}
  {names : String → Prop} {left : row} {right : other}

/-- Reading gives the same under every one of the names. -/
def Agree (names : String → Prop) (left : row) (right : other) : Prop :=
  ∀ name, names name → Cells.cell? left name = Cells.cell? right name

theorem Agree.put (agree : Agree names left right) (laws : Cells.Laws valid)
    (others : Cells.Laws sound) (coherent : valid left) (intact : sound right)
    {column : String} (shared : names column) {old : Value}
    (found : Cells.cell? left column = some old) (value : Value) :
    Agree names (Cells.put left column value) (Cells.put right column value) := by
  intro name known
  by_cases same : name = column
  · subst same
    rw [laws.cell?_put_same value coherent found,
      others.cell?_put_same value intact ((agree name known).symm.trans found)]
  · rw [laws.cell?_put_other value coherent same, others.cell?_put_other value intact same]
    exact agree name known

theorem openCells_agree (cipher : Option Cipher) {columns : List String}
    (laws : Cells.Laws valid) (others : Cells.Laws sound) (coherent : valid left)
    (intact : sound right) (shared : ∀ column ∈ columns, names column)
    (agree : Agree names left right) :
    (openCells cipher columns left).result = (openCells cipher columns right).result
    ∧ (openCells cipher columns left).trace = (openCells cipher columns right).trace
    ∧ Agree names (opened cipher columns left) (opened cipher columns right) := by
  induction columns generalizing left right with
  | nil => exact ⟨rfl, rfl, agree⟩
  | cons first rest ih =>
      have known := shared first List.mem_cons_self
      have later : ∀ column ∈ rest, names column :=
        fun column member => shared column (List.mem_cons_of_mem first member)
      unfold opened
      cases found : Cells.cell? left first with
      | none =>
          have missing := (agree first known).symm.trans found
          rw [openCells_of_absent rest found, openCells_of_absent rest missing]
          exact ih coherent intact later agree
      | some value =>
          have there := (agree first known).symm.trans found
          cases blank : value.isBlank with
          | true =>
              rw [openCells_of_blank rest found blank, openCells_of_blank rest there blank]
              exact ih coherent intact later agree
          | false =>
              rw [openCells_of_visible rest found blank, openCells_of_visible rest there blank]
              obtain ⟨answer, calls⟩ := openValue cipher first value
              cases answer with
              | error cause => exact ⟨rfl, rfl, agree⟩
              | ok plain =>
                  obtain ⟨results, traces, after⟩ := ih
                    (laws.valid_put first plain coherent) (others.valid_put first plain intact)
                    later (agree.put laws others coherent intact known found plain)
                  exact ⟨results, congrArg (calls ++ ·) traces, after⟩

end Agree

/-! Reading by name, in either shape. -/

theorem firstNamed_append {α : Type} (name : String) (before after : List (String × α)) :
    firstNamed name (before ++ after) = (firstNamed name before).or (firstNamed name after) := by
  induction before with
  | nil => rfl
  | cons first rest ih =>
      rw [List.cons_append, firstNamed, firstNamed]
      split
      · rfl
      · exact ih

theorem Row.get?_ofNames (names : List String) (values : List Value) (name : String) :
    (Row.ofNames names values).get? name =
      (lastPosition? name names).bind fun position => values[position]? := by
  rw [get?, position?, ofNames, Header.position?_ofNames]

namespace Fields

theorem get?_set (fields : Fields) (name other : String) (value : Value) :
    (fields.set name value).get? other =
      if other = name then some value else fields.get? other := by
  unfold set
  by_cases held : (fields.get? name).isSome
  · rw [if_pos held]
    obtain ⟨old, found⟩ := Option.isSome_iff_exists.mp held
    by_cases same : other = name
    · subst same
      rw [if_pos rfl]
      exact laws.cell?_put_same value trivial found
    · rw [if_neg same]
      exact laws.cell?_put_other value trivial same
  · rw [if_neg held]
    have absent : firstNamed name fields.entries = none := by simpa [get?] using held
    by_cases same : other = name
    · simp [get?, firstNamed_append, firstNamed, same, absent]
    · simp [get?, firstNamed_append, firstNamed, same, Ne.symm same]

/-- Of cells under one name the last one stays. -/
theorem get?_foldl_set (cells : List (String × Value)) (fields : Fields) (name : String) :
    (cells.foldl (fun fields cell => fields.set cell.1 cell.2) fields).get? name =
      match lastPosition? name (cells.map (·.1)) with
      | some position => cells[position]?.map (·.2)
      | none => fields.get? name := by
  induction cells generalizing fields with
  | nil => rfl
  | cons first rest ih =>
      rw [List.foldl_cons, ih, List.map_cons, lastPosition?]
      cases later : lastPosition? name (rest.map (·.1)) with
      | some position => rfl
      | none =>
          dsimp only
          rw [get?_set]
          by_cases same : first.1 = name
          · rw [if_pos same, if_pos same.symm]
            rfl
          · rw [if_neg same, if_neg (Ne.symm same)]

theorem get?_ofRow {names : List String} {values : List Value}
    (wide : names.length ≤ values.length) (name : String) :
    (ofRow (.ofNames names values)).get? name = (Row.ofNames names values).get? name := by
  have named : (names.zip values).map (·.1) = names := List.map_fst_zip wide
  have cells : (Row.ofNames names values).cells = names.zip values := rfl
  rw [Row.get?_ofNames, ofRow, get?_foldl_set, cells, named]
  cases found : lastPosition? name names with
  | none => rfl
  | some position =>
      have held := ((lastPosition?_eq_some_iff name names position).mp found).1
      have inside : position < names.length := (List.getElem?_eq_some_iff.mp held).1
      have there : position < values.length := by omega
      have both : position < (names.zip values).length := by
        rw [List.length_zip]
        omega
      simp [List.getElem?_eq_getElem both, there]

end Fields

theorem ShapedRow.get?_ofRow {names : List String} {values : List Value}
    (wide : names.length ≤ values.length) (kind : RowKind) (name : String) :
    (ofRow kind (.ofNames names values)).get? name = (Row.ofNames names values).get? name := by
  cases kind with
  | columns => rfl
  | fields => exact Fields.get?_ofRow wide name

theorem Row.nested_ofNames (names others : List String) (values : List Value) :
    (Row.ofNames names values).nested others = .ofNames others (values.drop 1) := rfl

/-- A name that is not lost with the first column. -/
def Remains (names : List String) (name : String) : Prop :=
  names.head? ≠ some name ∨ name ∈ names.drop 1

theorem Row.get?_nested {names : List String} {name : String} (remains : Remains names name)
    (values : List Value) :
    ((Row.ofNames names values).nested (names.drop 1)).get? name =
      (Row.ofNames names values).get? name := by
  rw [nested_ofNames, get?_ofNames, get?_ofNames]
  cases names with
  | nil => rfl
  | cons first rest =>
      rw [List.drop_one, List.tail_cons, lastPosition?]
      cases found : lastPosition? name rest with
      | some position => simp
      | none =>
          have gone : name ∉ rest := (lastPosition?_eq_none_iff name rest).mp found
          have other : first ≠ name := by
            rcases remains with apart | kept
            · simpa using apart
            · exact absurd kept gone
          rw [if_neg other]
          rfl

theorem agree_nested {names : List String} {values : List Value} (kind : RowKind)
    (widths : values.length = names.length) :
    Agree (Remains names) (ShapedRow.ofRow kind (.ofNames names values))
      (ShapedRow.ofRow kind ((Row.ofNames names values).nested (names.drop 1))) := by
  intro name remains
  have wide : names.length ≤ values.length := by omega
  have rest : (names.drop 1).length ≤ (values.drop 1).length := by
    rw [List.length_drop, List.length_drop]
    omega
  change (ShapedRow.ofRow kind _).get? name = (ShapedRow.ofRow kind _).get? name
  rw [ShapedRow.get?_ofRow wide, ← Row.get?_nested remains, Row.nested_ofNames,
    ShapedRow.get?_ofRow rest]

/-! The first cell. -/

namespace Fields

theorem head?_names_set (fields : Fields) (name : String) (value : Value) :
    (fields.set name value).names.head? = fields.names.head?.or (some name) := by
  unfold set
  by_cases held : (fields.get? name).isSome
  · rw [if_pos held, names_put]
    -- A field is held, so there is a first one.
    cases entries : fields.entries with
    | nil => simp [get?, entries, firstNamed] at held
    | cons first rest => simp [names, entries]
  · rw [if_neg held]
    simp [names, List.head?_append]

theorem head?_names_foldl_set (cells : List (String × Value)) (fields : Fields) :
    (cells.foldl (fun fields cell => fields.set cell.1 cell.2) fields).names.head? =
      fields.names.head?.or (cells.head?.map (·.1)) := by
  induction cells generalizing fields with
  | nil => simp
  | cons first rest ih =>
      rw [List.foldl_cons, ih, head?_names_set, Option.or_assoc]
      simp

end Fields

namespace ShapedRow

/-- What stands first in the row is `first`, and is under none of the columns. -/
def FirstApart (columns : List String) (first : Option Value) (shaped : ShapedRow) : Prop :=
  shaped.shown.head? = first ∧
    match shaped with
    | .columns row => ∀ column ∈ columns, row.position? column ≠ some 0
    | .fields cells => ∀ name ∈ cells.names.head?, name ∉ columns

theorem firstApart_put {columns : List String} {first : Option Value} {shaped : ShapedRow}
    {column : String} (listed : column ∈ columns) (value : Value)
    (apart : FirstApart columns first shaped) :
    FirstApart columns first (shaped.put column value) := by
  obtain ⟨here, unlisted⟩ := apart
  cases shaped with
  | columns row =>
      constructor
      · rw [← here]
        change (row.put column value).values.head? = row.values.head?
        unfold Row.put
        cases found : row.position? column with
        | none => rfl
        | some position =>
            have later : position ≠ 0 := by
              rintro rfl
              exact unlisted column listed found
            rw [List.head?_eq_getElem?, List.head?_eq_getElem?]
            exact List.getElem?_set_ne later
      · intro other member
        rw [Row.position?_put]
        exact unlisted other member
  | fields cells =>
      constructor
      · rw [← here]
        change ((Fields.putFirst column value cells.entries).map (·.2)).head? =
          (cells.entries.map (·.2)).head?
        cases entries : cells.entries with
        | nil => rfl
        | cons entry rest =>
            have other : entry.1 ≠ column := by
              rintro rfl
              exact unlisted entry.1 (by simp [Fields.names, entries]) listed
            rw [Fields.putFirst, if_neg other]
            rfl
      · change ∀ name ∈ (cells.put column value).names.head?, name ∉ columns
        rw [Fields.names_put]
        exact unlisted

theorem firstApart_ofRow {names columns : List String} (kind : RowKind) (values : List Value)
    (ordinary : ∀ first ∈ names.head?, first ∉ columns) :
    FirstApart columns (ofRow kind (.ofNames names values)).shown.head?
      (ofRow kind (.ofNames names values)) := by
  refine ⟨rfl, ?_⟩
  cases kind with
  | columns =>
      intro column listed found
      rw [Row.position?, Row.ofNames, Header.position?_ofNames] at found
      have first := ((lastPosition?_eq_some_iff column names 0).mp found).1
      rw [← List.head?_eq_getElem?] at first
      exact ordinary column first listed
  | fields =>
      intro name leading
      apply ordinary name
      rw [Fields.ofRow, Fields.head?_names_foldl_set] at leading
      cases names with
      | nil => contradiction
      | cons first rest =>
          cases values with
          | nil => contradiction
          | cons value later => exact leading

/-- The first cell stays if its column is not listed. -/
theorem head?_shown_opened {names columns : List String} (cipher : Option Cipher) (kind : RowKind)
    (values : List Value) (ordinary : ∀ first ∈ names.head?, first ∉ columns) :
    (opened cipher columns (ofRow kind (.ofNames names values))).shown.head? =
      (ofRow kind (.ofNames names values)).shown.head? :=
  (openCells_keeps (fun _ _ listed value => firstApart_put listed value)
    (firstApart_ofRow kind values ordinary)).1

end ShapedRow

/-! Rows of one set, grouped or not. -/

theorem ResultSet.foldl_addValues (names : List String) (table : List (List Value)) :
    table.foldl addValues (empty.setNames names) =
      ⟨table.map (.ofNames names), table.length, some (.ofNames names)⟩ := by
  induction table using List.reverseRecOn with
  | nil => rfl
  | append_singleton before last ih =>
      rw [List.foldl_append, ih, List.map_append, List.length_append]
      rfl

theorem filter_zip_map {α β : Type} (f : α → β) (keep : α → Bool) (items : List α) :
    ((items.zip (items.map f)).filter fun pair => keep pair.1).map (·.2) =
      (items.filter keep).map f := by
  induction items with
  | nil => rfl
  | cons first rest ih =>
      rw [List.map_cons, List.zip_cons_cons, List.filter_cons, List.filter_cons]
      cases keep first with
      | false => exact ih
      | true => exact congrArg (f first :: ·) ih

section Commute
variable {names columns : List String} (cipher : Option Cipher) (kind : RowKind)

/-- The row in its shape. -/
def wholeRow (kind : RowKind) (row : Row) : ShapedRow := .ofRow kind row

/-- The row in its shape, without its first cell. -/
def restOfRow (kind : RowKind) (names : List String) (row : Row) : ShapedRow :=
  .ofRow kind (row.nested (names.drop 1))

theorem opened_restOfRow {values : List Value} (widths : values.length = names.length)
    (ordinary : ∀ first ∈ names.head?, first ∉ columns) :
    let row := Row.ofNames names values
    (openCells cipher columns (wholeRow kind row)).result =
      (openCells cipher columns (restOfRow kind names row)).result
    ∧ ∀ name ∈ names.drop 1, (opened cipher columns (restOfRow kind names row)).get? name =
      (opened cipher columns (wholeRow kind row)).get? name := by
  have remain : ∀ column ∈ columns, Remains names column := fun column listed =>
    Or.inl fun first => ordinary column first listed
  obtain ⟨results, -, after⟩ := openCells_agree cipher ShapedRow.laws ShapedRow.laws
    (ShapedRow.unaliased_ofRow kind names values) (ShapedRow.unaliased_ofRow kind _ _) remain
    (agree_nested kind widths)
  exact ⟨results, fun name member => (after name (Or.inr member)).symm⟩

/-- Grouping makes no difference to ordinary columns. The set may be decrypted after grouping
    exactly if it may be decrypted as it is. Then the groups stand in the order in which their
    identities come first, told from the first cells, which decryption does not touch; and a
    group shows the rows of its identity in order, each with the cells it has when it is
    decrypted as a whole. -/
theorem grouping_commutes_with_decryption {table : List (List Value)}
    (widths : ∀ values ∈ table, values.length = names.length)
    (ordinary : ∀ first ∈ names.head?, first ∉ columns) :
    let results := table.foldl ResultSet.addValues (ResultSet.empty.setNames names)
    let flat := openRowSet cipher columns (results.shaped ⟨kind, false⟩)
    let grouped := openRowSet cipher columns (results.shaped ⟨kind, true⟩)
    (grouped.result = .ok () ↔ flat.result = .ok ())
    ∧ (flat.result = .ok () → ∃ rows groups, flat.row = .flat rows ∧ grouped.row = .grouped groups
      ∧ List.Forall₂ (fun row shaped => shaped.shown.head? = (wholeRow kind row).shown.head?)
          results.rows rows
      ∧ groups.map (·.groupIdentity) = (results.rows.map (·.groupIdentity)).eraseDups
      ∧ ∀ group ∈ groups, List.Forall₂
          (fun whole rest => ∀ name ∈ names.drop 1, rest.get? name = whole.get? name)
          (((results.rows.zip rows).filter fun pair =>
            pair.1.groupIdentity = group.groupIdentity).map (·.2)) group.rows) := by
  intro results flat grouped
  have made : results = ⟨table.map (.ofNames names), table.length, some (.ofNames names)⟩ :=
    ResultSet.foldl_addValues names table
  have each : ∀ row ∈ results.rows, ∃ values, values.length = names.length
      ∧ row = .ofNames names values := by
    intro row member
    rw [made] at member
    obtain ⟨values, present, rfl⟩ := List.mem_map.mp member
    exact ⟨values, widths values present, rfl⟩
  have named : results.names? = some names := by
    rw [made]
    rfl
  obtain ⟨flatGoes, flatGives⟩ : (flat.result = .ok () ↔ _) ∧ _ := openRowSet_flat rfl
  obtain ⟨groupedGoes, groupedGives⟩ : (grouped.result = .ok () ↔ _) ∧ _ :=
    openRowSet_grouped named rfl
  have same : grouped.result = .ok () ↔ flat.result = .ok () := by
    rw [flatGoes, groupedGoes]
    apply forall₂_congr
    intro row member
    obtain ⟨values, wide, rfl⟩ := each row member
    exact Eq.congr_left (opened_restOfRow cipher kind wide ordinary).1.symm
  refine ⟨same, fun done => ?_⟩
  obtain ⟨groups, shown, grouping⟩ := groupedGives (same.mpr done)
  refine ⟨results.rows.map fun row => opened cipher columns (wholeRow kind row), groups,
    flatGives done, shown, ?_, grouping.order, ?_⟩
  · rw [List.forall₂_map_right_iff, List.forall₂_same]
    intro row member
    obtain ⟨values, -, rfl⟩ := each row member
    exact ShapedRow.head?_shown_opened cipher kind values ordinary
  · intro group member
    -- On both sides stand the rows of one identity, decrypted as a whole or without the key.
    have counterparts := filter_zip_map (fun row => opened cipher columns (wholeRow kind row))
      (fun row => row.groupIdentity = group.groupIdentity) results.rows
    rw [counterparts, grouping.gathered group member, List.forall₂_map_left_iff,
      List.forall₂_map_right_iff]
    apply List.forall₂_same.mpr
    intro row shared
    obtain ⟨values, wide, rfl⟩ := each row (List.mem_filter.mp shared).1
    exact (opened_restOfRow cipher kind wide ordinary).2

/-- Badges under a column name that stands twice. -/
def badges : List (List Value) :=
  [[.text "eng", .text "e-1", .text "e-1 "], [.text "ops", .text "o-1", .text "o-1 "],
   [.text "eng", .null, .blob [0x65, 0x20]]]

theorem badges_by_department :
    let results :=
      badges.foldl ResultSet.addValues (ResultSet.empty.setNames ["dept", "code", "code"])
    let grouped := openRowSet (some (Sample.pad " ")) ["code", "code"]
      (results.shaped ⟨.fields, true⟩)
    grouped.result = .ok () ∧ ∃ groups, grouped.row = .grouped groups
      ∧ groups.map (·.groupIdentity) = [.text "eng", .text "ops"] := by
  intro results grouped
  obtain ⟨same, goes⟩ := @grouping_commutes_with_decryption ["dept", "code", "code"]
    ["code", "code"] (some (Sample.pad " ")) .fields badges (by decide) (by decide)
  obtain ⟨rows, groups, -, shown, -, order, -⟩ := goes rfl
  exact ⟨same.mpr rfl, groups, shown, order⟩

end Commute

end SealedColumns
