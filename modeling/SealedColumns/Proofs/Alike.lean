import Mathlib.Data.List.Forall2
import SealedColumns.Proofs.Agreement
import SealedColumns.Proofs.Logging

/-!
Parameters and rows that differ in their values only: the names are the same, and where one
has a blank value so has the other. Expansion keeps this, and so do shaping and grouping,
provided that rows are in one group here if and only if they are there. Whatever passes
over such rows logs the same.
-/

namespace SealedColumns

/-- Blank both, or neither, or nothing on either side. -/
def AlikeBlank (left right : Option Value) : Prop :=
  left.map Value.isBlank = right.map Value.isBlank

theorem AlikeBlank.isSome_eq {left right : Option Value} (alike : AlikeBlank left right) :
    left.isSome = right.isSome := by
  have same := congrArg Option.isSome alike
  rwa [Option.isSome_map, Option.isSome_map] at same

theorem AlikeBlank.exists_some {left right : Option Value} (alike : AlikeBlank left right)
    {value : Value} (found : left = some value) :
    ∃ other, right = some other ∧ value.isBlank = other.isBlank := by
  subst found
  obtain ⟨other, there, same⟩ := Option.map_eq_some_iff.mp alike.symm
  exact ⟨other, there, same.symm⟩

/-! Parameters. -/

namespace Parameters

/-- The same keys are bound, and to blank values under the same keys. -/
def Alike (left right : Parameters) : Prop := ∀ key, AlikeBlank (left.get? key) (right.get? key)

namespace Alike
variable {left right : Parameters}

theorem size_eq (alike : Alike left right) : left.size = right.size :=
  NameMap.size_eq_of_contains fun key => (alike key).isSome_eq

theorem shows_eq (alike : Alike left right) (key : String) : left.shows key = right.shows key := by
  have same : AlikeBlank (left.get? key) (right.get? key) := alike key
  rw [shows, same, shows]

theorem insert (alike : Alike left right) {value other : Value}
    (blanks : value.isBlank = other.isBlank) (name : String) :
    Alike (left.insert name value) (right.insert name other) := by
  intro key
  rw [NameMap.get?_insert, NameMap.get?_insert]
  split
  · exact congrArg some blanks
  · exact alike key

theorem unbind (alike : Alike left right) (name : String) :
    Alike (left.unbind name) (right.unbind name) := by
  intro key
  rw [get?_unbind, get?_unbind]
  split
  · rfl
  · exact alike key

/-- A placeholder is bound under the same key, or is not bound at all. -/
theorem bound?_cases (alike : Alike left right) (name : String) :
    (left.bound? name = none ∧ right.bound? name = none)
      ∨ ∃ key value other, left.bound? name = some (key, value)
        ∧ right.bound? name = some (key, other) ∧ value.isBlank = other.isBlank := by
  unfold bound?
  cases bare : left.get? name with
  | some value =>
      obtain ⟨other, there, blanks⟩ := (alike name).exists_some bare
      exact Or.inr ⟨name, value, other, rfl, by rw [there], blanks⟩
  | none =>
      have missing : right.get? name = none := by
        simpa [bare] using (alike name).isSome_eq.symm
      rw [missing]
      cases marked : left.get? (sigilKey name) with
      | some value =>
          obtain ⟨other, there, blanks⟩ := (alike (sigilKey name)).exists_some marked
          exact Or.inr ⟨sigilKey name, value, other, rfl, by rw [there]; rfl, blanks⟩
      | none =>
          have gone : right.get? (sigilKey name) = none := by
            simpa [marked] using (alike (sigilKey name)).isSome_eq.symm
          exact Or.inl ⟨rfl, by rw [gone]; rfl⟩

theorem binds_eq (alike : Alike left right) (name : String) :
    left.binds name = right.binds name := by
  unfold binds
  obtain ⟨here, there⟩ | ⟨key, value, other, here, there, -⟩ := alike.bound?_cases name
  · rw [here, there]
  · rw [here, there]
    rfl

end Alike

end Parameters

namespace Placeholder

variable {left right : Parameters}

theorem alike_bindGenerated (alike : left.Alike right) {value other : Value}
    (blanks : value.isBlank = other.isBlank) (withSigil : Bool) (name : String) :
    (bindGenerated withSigil value left name).Alike (bindGenerated withSigil other right name) := by
  unfold bindGenerated
  rw [alike.binds_eq name]
  split
  · exact alike
  · exact alike.insert blanks _

theorem alike_expandName (alike : left.Alike right) (base : String) (generated : List String) :
    (expandName left base generated).Alike (expandName right base generated) := by
  unfold expandName
  obtain ⟨here, there⟩ | ⟨key, value, other, here, there, blanks⟩ := alike.bound?_cases base
  · rw [here, there]
    exact alike
  · rw [here, there]
    refine Parameters.Alike.unbind ?_ base
    clear here there
    induction generated generalizing left right with
    | nil => exact alike
    | cons name rest ih => exact ih (alike_bindGenerated alike blanks (hasSigil key) name)

theorem alike_expand (table : Expansions) (alike : left.Alike right) :
    (table.expand left).Alike (table.expand right) := by
  unfold Expansions.expand
  generalize table.entries = entries
  induction entries generalizing left right with
  | nil => exact alike
  | cons entry rest ih => exact ih (alike_expandName alike entry.1 entry.2)

end Placeholder

/-! Rows. -/

/-- Rows made of the same names, with blank cells in the same places. -/
inductive Row.Alike : Row → Row → Prop where
  | ofNames (names : List String) {values others : List Value}
      (blanks : values.map Value.isBlank = others.map Value.isBlank) :
      Row.Alike (.ofNames names values) (.ofNames names others)

/-- Shapes of such rows. -/
inductive ShapedRow.Alike : ShapedRow → ShapedRow → Prop where
  | ofRow (kind : RowKind) {left right : Row} (rows : left.Alike right) :
      ShapedRow.Alike (.ofRow kind left) (.ofRow kind right)

theorem alikeBlank_getElem? {values others : List Value}
    (blanks : values.map Value.isBlank = others.map Value.isBlank) (position : Nat) :
    AlikeBlank values[position]? others[position]? := by
  have same := congrArg (fun blank => blank[position]?) blanks
  simpa [AlikeBlank] using same

section Rows
variable {row other : Row} {left right : ShapedRow}

theorem Row.Alike.unaliased (alike : row.Alike other) :
    row.header.Unaliased ∧ other.header.Unaliased := by
  obtain ⟨names, -⟩ := alike
  exact ⟨Header.unaliased_ofNames names, Header.unaliased_ofNames names⟩

theorem ShapedRow.Alike.unaliased (alike : left.Alike right) :
    left.Unaliased ∧ right.Unaliased := by
  obtain ⟨kind, names, -⟩ := alike
  exact ⟨unaliased_ofRow kind names _, unaliased_ofRow kind names _⟩

theorem Row.Alike.get? (alike : row.Alike other) (name : String) :
    AlikeBlank (row.get? name) (other.get? name) := by
  obtain ⟨names, blanks⟩ := alike
  rw [Row.get?_ofNames, Row.get?_ofNames]
  cases lastPosition? name names with
  | none => rfl
  | some position => exact alikeBlank_getElem? blanks position

theorem Row.Alike.nested (alike : row.Alike other) (names : List String) :
    (row.nested names).Alike (other.nested names) := by
  obtain ⟨-, blanks⟩ := alike
  refine .ofNames names ?_
  rw [List.map_drop, List.map_drop]
  exact congrArg (List.drop 1) blanks

/-- What a row of fields reads is settled by its cells, each taken with its name. -/
theorem Fields.alikeBlank_ofRow (alike : row.Alike other) (name : String) :
    AlikeBlank ((ofRow row).get? name) ((ofRow other).get? name) := by
  obtain @⟨names, values, others, blanks⟩ := alike
  -- There may be fewer values than names; then both rows lack the same fields.
  have cells : (names.zip values).map (Prod.map id Value.isBlank) =
      (names.zip others).map (Prod.map id Value.isBlank) := by
    rw [← List.zip_map_right, blanks, List.zip_map_right]
  have named : (names.zip values).map (·.1) = (names.zip others).map (·.1) := by
    simpa [Function.comp_def] using congrArg (List.map Prod.fst) cells
  change AlikeBlank (((names.zip values).foldl _ empty).get? name)
    (((names.zip others).foldl _ empty).get? name)
  rw [get?_foldl_set, get?_foldl_set, named]
  cases lastPosition? name ((names.zip others).map (·.1)) with
  | none => rfl
  | some position =>
      have held := congrArg (fun blank => blank[position]?.map Prod.snd) cells
      simpa [AlikeBlank, Function.comp_def] using held

theorem ShapedRow.Alike.get? (alike : left.Alike right) (name : String) :
    AlikeBlank (left.get? name) (right.get? name) := by
  obtain ⟨kind, rows⟩ := alike
  cases kind with
  | columns => exact rows.get? name
  | fields => exact Fields.alikeBlank_ofRow rows name

theorem logged_congr {α β : Type} [Cells α] [Cells β] {here : α} {there : β}
    (alike : ∀ name, AlikeBlank (Cells.cell? here name) (Cells.cell? there name))
    (columns : List String) : logged columns here = logged columns there := by
  have shows : Cells.shows here = Cells.shows there := by
    funext name
    have same : AlikeBlank (Cells.cell? here name) (Cells.cell? there name) := alike name
    rw [Cells.shows, same, Cells.shows]
  rw [logged, shows, logged]

end Rows

/-! Sets of rows. -/

/-- Rows belong together on one side if and only if they do on the other. -/
def SameGroups (rows others : List Row) : Prop :=
  ∀ pair ∈ rows.zip others, ∀ later ∈ rows.zip others,
    pair.1.groupIdentity = later.1.groupIdentity ↔ pair.2.groupIdentity = later.2.groupIdentity

/-- As many rows on both sides, alike in order, under the same names. -/
structure ResultSet.Alike (results others : ResultSet) : Prop where
  names : results.names? = others.names?
  rows : List.Forall₂ Row.Alike results.rows others.rows

/-- Groups with rows alike in order, which the rows that are ahead join on both sides or on
    neither. -/
structure KeyedRows.Alike (ahead : List (Row × Row)) (group other : KeyedRows) : Prop where
  rows : List.Forall₂ ShapedRow.Alike group.rows other.rows
  joins : ∀ pair ∈ ahead,
    group.groupIdentity = pair.1.groupIdentity ↔ other.groupIdentity = pair.2.groupIdentity

section Groups
variable {row other : Row} {shaped mirrored : ShapedRow} {ahead : List (Row × Row)}
  {groups others : List KeyedRows}

theorem KeyedRows.Alike.tail {pair : Row × Row} {group twin : KeyedRows}
    (alike : KeyedRows.Alike (pair :: ahead) group twin) : KeyedRows.Alike ahead group twin :=
  ⟨alike.rows, fun later member => alike.joins later (List.mem_cons_of_mem _ member)⟩

theorem alike_addToGroup
    (alike : List.Forall₂ (KeyedRows.Alike ((row, other) :: ahead)) groups others)
    (shapes : shaped.Alike mirrored)
    (joins : ∀ pair ∈ ahead,
      row.groupIdentity = pair.1.groupIdentity ↔ other.groupIdentity = pair.2.groupIdentity) :
    List.Forall₂ (KeyedRows.Alike ahead) (addToGroup row.firstCell shaped groups)
      (addToGroup other.firstCell mirrored others) := by
  induction alike with
  | nil => exact .cons ⟨.cons shapes .nil, joins⟩ .nil
  | @cons group twin _ _ first rest ih =>
      have joined := first.joins (row, other) List.mem_cons_self
      rw [addToGroup, addToGroup]
      by_cases here : group.groupIdentity = row.groupIdentity
      · rw [if_pos here, if_pos (joined.mp here)]
        -- The row joins the group, whose identity is what it was.
        refine .cons ⟨?_, first.tail.joins⟩ (rest.imp fun _ _ => KeyedRows.Alike.tail)
        exact List.rel_append first.rows (.cons shapes .nil)
      · rw [if_neg here, if_neg (mt joined.mpr here)]
        exact .cons first.tail ih

end Groups

section Sets
variable {rows others : List Row} {results mirrored : ResultSet}

theorem SameGroups.tail {row other : Row} (same : SameGroups (row :: rows) (other :: others)) :
    SameGroups rows others :=
  fun pair member later after =>
    same pair (List.mem_cons_of_mem _ member) later (List.mem_cons_of_mem _ after)

theorem alike_foldl_addToGroup (alike : List.Forall₂ Row.Alike rows others)
    (same : SameGroups rows others) (kind : RowKind) (names : List String)
    {groups twins : List KeyedRows}
    (gathered : List.Forall₂ (KeyedRows.Alike (rows.zip others)) groups twins) :
    let gather (groups : List KeyedRows) (row : Row) : List KeyedRows :=
      addToGroup row.firstCell (.ofRow kind (row.nested names)) groups
    List.Forall₂ (KeyedRows.Alike []) (rows.foldl gather groups) (others.foldl gather twins) := by
  intro gather
  -- The rows that are ahead of the groups are those that are still to be gathered.
  induction alike generalizing groups twins with
  | nil => exact gathered
  | @cons row other rows others first rest ih =>
      refine ih same.tail (alike_addToGroup gathered (.ofRow kind (first.nested names)) ?_)
      exact fun pair member => same (row, other) List.mem_cons_self pair
        (List.mem_cons_of_mem _ member)

theorem alike_shaped (alike : results.Alike mirrored) {layout : RowLayout}
    (same : layout.grouped = true → SameGroups results.rows mirrored.rows) :
    List.Forall₂ ShapedRow.Alike (results.shaped layout).rows (mirrored.shaped layout).rows := by
  unfold ResultSet.shaped
  split
  · next grouped =>
    rw [alike.names]
    cases mirrored.names? with
    | none => exact .nil
    | some names =>
        have groups := alike_foldl_addToGroup alike.rows (same grouped) layout.kind
          (names.drop 1) .nil
        exact List.rel_flatMap groups fun _ _ group => group.rows
  · rw [RowSet.rows, RowSet.rows, List.forall₂_map_left_iff, List.forall₂_map_right_iff]
    exact alike.rows.imp fun _ _ row => .ofRow layout.kind row

theorem forall_mem_of_forall₂ {α β : Type} {R : α → β → Prop} {holds : α → Prop}
    {mirrors : β → Prop} (each : ∀ a b, R a b → holds a ∧ mirrors b) {items : List α}
    {twins : List β} (alike : List.Forall₂ R items twins) :
    (∀ a ∈ items, holds a) ∧ ∀ b ∈ twins, mirrors b := by
  induction alike with
  | nil => simp
  | cons first _ ih =>
      obtain ⟨here, there⟩ := each _ _ first
      exact ⟨List.forall_mem_cons.mpr ⟨here, ih.1⟩, List.forall_mem_cons.mpr ⟨there, ih.2⟩⟩

theorem unaliased_of_shapes {cells twins : List ShapedRow}
    (shapes : List.Forall₂ ShapedRow.Alike cells twins) :
    (∀ shaped ∈ cells, shaped.Unaliased) ∧ ∀ shaped ∈ twins, shaped.Unaliased :=
  forall_mem_of_forall₂ (fun _ _ shaped => ShapedRow.Alike.unaliased shaped) shapes

theorem unaliased_of_rows (alike : List.Forall₂ Row.Alike rows others) :
    (∀ row ∈ rows, row.header.Unaliased) ∧ ∀ row ∈ others, row.header.Unaliased :=
  forall_mem_of_forall₂ (fun _ _ row => Row.Alike.unaliased row) alike

theorem flatMap_logged_eq {α β : Type} [Cells α] [Cells β] {R : α → β → Prop}
    {columns : List String} (each : ∀ a b, R a b → logged columns a = logged columns b)
    {items : List α} {twins : List β} (alike : List.Forall₂ R items twins) :
    items.flatMap (logged columns) = twins.flatMap (logged columns) := by
  induction alike with
  | nil => rfl
  | cons first _ ih => rw [List.flatMap_cons, List.flatMap_cons, each _ _ first, ih]

end Sets

end SealedColumns
