import Mathlib.Data.List.Induction
import Mathlib.Data.List.Nodup
import SealedColumns.Proofs.Opening
import SealedColumns.Sample.Ciphers
import SealedColumns.Sample.Script
import SealedColumns.Statement

/-!
Rows gathered under their first cells. Every row is in the group of its identity and in no
other, groups stand in the order of their first rows, and a group keeps its rows in order.
Rows are gathered as the client gave them and decrypted afterwards, which leaves the keys
alone: an encrypted first column groups by its ciphertexts.
-/

namespace SealedColumns

abbrev Row.groupIdentity (row : Row) : GroupIdentity := row.firstCell.groupIdentity

abbrev KeyedRows.groupIdentity (group : KeyedRows) : GroupIdentity := group.key.groupIdentity

/-- The rows whose first cells have the identity, in order. -/
def rowsSharing (identity : GroupIdentity) (rows : List Row) : List Row :=
  rows.filter fun row => row.groupIdentity = identity

/-- The groups of rows, `part` being what a group shows of a row. -/
structure Grouping (part : Row → ShapedRow) (rows : List Row) (groups : List KeyedRows) :
    Prop where
  order : groups.map (·.groupIdentity) = (rows.map (·.groupIdentity)).eraseDups
  key : ∀ group ∈ groups,
    (rowsSharing group.groupIdentity rows).head?.map (·.firstCell) = some group.key
  gathered : ∀ group ∈ groups, group.rows = (rowsSharing group.groupIdentity rows).map part

/-! Gathering. -/

section Distinct
variable {α : Type} [DecidableEq α]

theorem eraseDups_append_singleton (before : List α) (last : α) :
    (before ++ [last]).eraseDups =
      before.eraseDups ++ if last ∈ before then [] else [last] := by
  rw [List.eraseDups_append]
  by_cases seen : last ∈ before <;> simp [List.removeAll, seen, List.eraseDups_cons]

theorem nodup_eraseDups (items : List α) : items.eraseDups.Nodup := by
  induction items using List.reverseRecOn with
  | nil => simp
  | append_singleton before last ih =>
      rw [eraseDups_append_singleton]
      by_cases seen : last ∈ before
      · rwa [if_pos seen, List.append_nil]
      · have fresh : last ∉ before.eraseDups := fun member => seen (List.mem_eraseDups.mp member)
        rw [if_neg seen]
        exact List.concat_eq_append ▸ ih.concat fresh

end Distinct

section Gathering
variable {key : Value} {row : ShapedRow} {groups : List KeyedRows}

/-- The group with the row, if it is the row's. -/
def KeyedRows.join (key : Value) (row : ShapedRow) (group : KeyedRows) : KeyedRows :=
  if group.groupIdentity = key.groupIdentity then { group with rows := group.rows ++ [row] }
  else group

@[simp] theorem KeyedRows.key_join (group : KeyedRows) : (group.join key row).key = group.key := by
  unfold join
  split <;> rfl

@[simp] theorem KeyedRows.groupIdentity_join (group : KeyedRows) :
    (group.join key row).groupIdentity = group.groupIdentity :=
  congrArg Value.groupIdentity group.key_join

theorem map_join_of_not_mem (absent : key.groupIdentity ∉ groups.map (·.groupIdentity)) :
    groups.map (·.join key row) = groups := by
  rw [List.map_congr_left (g := id), List.map_id]
  intro group member
  have other : group.groupIdentity ≠ key.groupIdentity := fun same =>
    absent (same ▸ List.mem_map_of_mem member)
  exact if_neg other

theorem addToGroup_eq (distinct : (groups.map (·.groupIdentity)).Nodup) :
    addToGroup key row groups = groups.map (·.join key row)
      ++ if key.groupIdentity ∈ groups.map (·.groupIdentity) then [] else [⟨key, [row]⟩] := by
  induction groups with
  | nil => simp [addToGroup]
  | cons group rest ih =>
      obtain ⟨absent, tail⟩ := List.nodup_cons.mp distinct
      rw [addToGroup, List.map_cons, List.map_cons]
      by_cases same : group.groupIdentity = key.groupIdentity
      · -- No other group has the identity.
        have absent : key.groupIdentity ∉ rest.map (·.groupIdentity) := same ▸ absent
        rw [if_pos same, map_join_of_not_mem absent, if_pos (by simp [same]), List.append_nil,
          KeyedRows.join, if_pos same]
      · rw [if_neg same, ih tail, KeyedRows.join, if_neg same]
        simp [Ne.symm same]

end Gathering

theorem rowsSharing_append (identity : GroupIdentity) (before after : List Row) :
    rowsSharing identity (before ++ after) =
      rowsSharing identity before ++ rowsSharing identity after :=
  List.filter_append ..

theorem rowsSharing_singleton (identity : GroupIdentity) (row : Row) :
    rowsSharing identity [row] = if row.groupIdentity = identity then [row] else [] := by
  by_cases same : row.groupIdentity = identity <;> simp [rowsSharing, same]

theorem rowsSharing_eq_nil {identity : GroupIdentity} {rows : List Row}
    (absent : identity ∉ rows.map (·.groupIdentity)) : rowsSharing identity rows = [] := by
  apply List.filter_eq_nil_iff.mpr
  intro row member same
  exact absent (of_decide_eq_true same ▸ List.mem_map_of_mem member)

namespace Grouping

variable {part : Row → ShapedRow} {rows : List Row} {groups : List KeyedRows}

theorem mem_iff (grouping : Grouping part rows groups) (identity : GroupIdentity) :
    identity ∈ groups.map (·.groupIdentity) ↔ identity ∈ rows.map (·.groupIdentity) := by
  rw [grouping.order, List.mem_eraseDups]

theorem distinct (grouping : Grouping part rows groups) :
    (groups.map (·.groupIdentity)).Nodup := by
  rw [grouping.order]
  exact nodup_eraseDups _

theorem add (grouping : Grouping part rows groups) (row : Row) :
    Grouping part (rows ++ [row]) (addToGroup row.firstCell (part row) groups) := by
  have known := grouping.mem_iff row.groupIdentity
  rw [addToGroup_eq grouping.distinct]
  refine { order := ?_, key := ?_, gathered := ?_ }
  · have same : (groups.map (·.join row.firstCell (part row))).map (·.groupIdentity) =
        groups.map (·.groupIdentity) := by simp
    rw [List.map_append, same, List.map_append, List.map_singleton, eraseDups_append_singleton,
      ← grouping.order]
    congr 1
    by_cases seen : row.groupIdentity ∈ rows.map (·.groupIdentity)
    · rw [if_pos seen, if_pos (known.mpr seen)]
      rfl
    · rw [if_neg seen, if_neg (mt known.mp seen)]
      rfl
  · intro group member
    rw [rowsSharing_append, List.head?_append]
    rcases List.mem_append.mp member with old | new
    · obtain ⟨group, before, rfl⟩ := List.mem_map.mp old
      rw [KeyedRows.groupIdentity_join, KeyedRows.key_join, Option.map_or,
        grouping.key group before]
      rfl
    · split at new
      · contradiction
      · next absent =>
        obtain rfl := List.mem_singleton.mp new
        rw [show KeyedRows.groupIdentity ⟨row.firstCell, [part row]⟩ = row.groupIdentity from rfl,
          rowsSharing_eq_nil (mt known.mpr absent), rowsSharing_singleton, if_pos rfl]
        rfl
  · intro group member
    rw [rowsSharing_append, List.map_append]
    rcases List.mem_append.mp member with old | new
    · obtain ⟨group, before, rfl⟩ := List.mem_map.mp old
      rw [KeyedRows.groupIdentity_join, ← grouping.gathered group before, rowsSharing_singleton]
      unfold KeyedRows.join
      by_cases same : group.groupIdentity = row.firstCell.groupIdentity
      · rw [if_pos same, if_pos same.symm]
        rfl
      · rw [if_neg same, if_neg (Ne.symm same)]
        simp
    · split at new
      · contradiction
      · next absent =>
        obtain rfl := List.mem_singleton.mp new
        rw [show KeyedRows.groupIdentity ⟨row.firstCell, [part row]⟩ = row.groupIdentity from rfl,
          rowsSharing_eq_nil (mt known.mpr absent), rowsSharing_singleton, if_pos rfl]
        rfl

end Grouping

theorem grouping_groupRows (kind : RowKind) (names : List String) (rows : List Row) :
    Grouping (fun row => .ofRow kind (row.nested names)) rows (groupRows kind names rows) := by
  induction rows using List.reverseRecOn with
  | nil => exact ⟨by simp [groupRows], by simp [groupRows], by simp [groupRows]⟩
  | append_singleton before last ih =>
      rw [groupRows, List.foldl_append]
      exact ih.add last

/-! Decrypting what is gathered. -/

section Opening
variable {part : Row → ShapedRow} {rows : List Row} {groups : List KeyedRows}
  {cipher : Option Cipher} {columns : List String}

theorem Grouping.forall_rows_iff (grouping : Grouping part rows groups) (holds : ShapedRow → Prop) :
    (∀ group ∈ groups, ∀ row ∈ group.rows, holds row) ↔ ∀ row ∈ rows, holds (part row) := by
  constructor
  · intro each row member
    obtain ⟨group, present, same⟩ := List.mem_map.mp
      ((grouping.mem_iff row.groupIdentity).mpr (List.mem_map_of_mem member))
    apply each group present
    rw [grouping.gathered group present]
    exact List.mem_map_of_mem (List.mem_filter.mpr ⟨member, decide_eq_true same.symm⟩)
  · intro each group present row member
    rw [grouping.gathered group present] at member
    obtain ⟨row, shared, rfl⟩ := List.mem_map.mp member
    exact each row (List.mem_filter.mp shared).1

theorem Grouping.decrypted_ok_iff (grouping : Grouping part rows groups) :
    (openGroups cipher columns groups).result = .ok () ↔
      ∀ row ∈ rows, (openCells cipher columns (part row)).result = .ok () :=
  (openGroups_ok_iff groups).trans (grouping.forall_rows_iff _)

/-- Decrypting keeps the keys, and the rows where they are. -/
theorem Grouping.decrypted (grouping : Grouping part rows groups)
    (done : (openGroups cipher columns groups).result = .ok ()) :
    Grouping (fun row => opened cipher columns (part row)) rows
      (openGroups cipher columns groups).row := by
  rw [openGroups_row done]
  refine { order := ?_, key := ?_, gathered := ?_ }
  · rw [List.map_map, ← grouping.order]
    rfl
  · intro group member
    obtain ⟨stored, present, rfl⟩ := List.mem_map.mp member
    exact grouping.key stored present
  · intro group member
    obtain ⟨stored, present, rfl⟩ := List.mem_map.mp member
    dsimp only
    rw [grouping.gathered stored present, List.map_map]
    rfl

end Opening

theorem ResultSet.shaped_grouped {results : ResultSet} {names : List String} {layout : RowLayout}
    (named : results.names? = some names) (grouped : layout.grouped = true) :
    results.shaped layout = .grouped (groupRows layout.kind (names.drop 1) results.rows) := by
  rw [shaped, if_pos grouped, named]

/-! A set of rows, grouped or not, goes through if all its rows do. -/

section Sets
variable {cipher : Option Cipher} {columns names : List String} {results : ResultSet}
  {layout : RowLayout}

theorem openRowSet_flat (flat : layout.grouped = false) :
    let whole (row : Row) : ShapedRow := .ofRow layout.kind row
    let pass := openRowSet cipher columns (results.shaped layout)
    (pass.result = .ok () ↔
      ∀ row ∈ results.rows, (openCells cipher columns (whole row)).result = .ok ())
    ∧ (pass.result = .ok () →
      pass.row = .flat (results.rows.map fun row => opened cipher columns (whole row))) := by
  intro whole pass
  have shaped : results.shaped layout = .flat (results.rows.map whole) := by
    rw [ResultSet.shaped, flat]
    rfl
  have made : pass = openRowSet cipher columns (.flat (results.rows.map whole)) := by
    rw [← shaped]
  rw [made]
  constructor
  · exact (openRows_ok_iff _).trans List.forall_mem_map
  · intro done
    have rows := openRows_row done
    rw [List.map_map] at rows
    exact congrArg RowSet.flat rows

theorem openRowSet_grouped (named : results.names? = some names)
    (grouped : layout.grouped = true) :
    let rest (row : Row) : ShapedRow := .ofRow layout.kind (row.nested (names.drop 1))
    let pass := openRowSet cipher columns (results.shaped layout)
    (pass.result = .ok () ↔
      ∀ row ∈ results.rows, (openCells cipher columns (rest row)).result = .ok ())
    ∧ (pass.result = .ok () → ∃ groups, pass.row = .grouped groups
      ∧ Grouping (fun row => opened cipher columns (rest row)) results.rows groups) := by
  intro rest pass
  have gathered := grouping_groupRows layout.kind (names.drop 1) results.rows
  have made : pass = openRowSet cipher columns
      (.grouped (groupRows layout.kind (names.drop 1) results.rows)) := by
    rw [← ResultSet.shaped_grouped named grouped]
  rw [made]
  constructor
  · exact gathered.decrypted_ok_iff
  · exact fun done => ⟨_, rfl, gathered.decrypted done⟩

end Sets

namespace Statement

variable {state handle : Type}

theorem fetchRest_result {client : Client state handle} {world : World state}
    {statement : Statement handle} {results : ResultSet} (columns : Option (List String))
    (layout : Option RowLayout)
    (given : (remainingRows client world statement).result = .ok results) :
    let pass := openRowSet statement.cipher (statement.columnsFor columns)
      (results.shaped (statement.layoutFor layout))
    (statement.fetchRest client world columns layout).result =
      pass.result.map fun _ => pass.row := by
  rw [fetchRest, Step.andThen, given]

/-- Rows are grouped by their first cells as the client gave them, whether or not the first
    column is one to decrypt. Fetching goes through if the rest of every row can be decrypted,
    which it can if no column is listed twice and the cipher decrypts the cells that are not
    blank. Then a group bears the first cell of its first row, unchanged; two rows are in one
    group if and only if these cells have one text form, or are both null, or are the same
    bytes that are not UTF-8; and only what is left of the rows is decrypted. -/
theorem fetchRest_groups_stored_cells {client : Client state handle} {world : World state}
    {statement : Statement handle} {columns : Option (List String)} {layout : Option RowLayout}
    {results : ResultSet} {names : List String}
    (given : (remainingRows client world statement).result = .ok results)
    (named : results.names? = some names)
    (grouped : (statement.layoutFor layout).grouped = true) :
    let rest (row : Row) : ShapedRow :=
      .ofRow (statement.layoutFor layout).kind (row.nested (names.drop 1))
    let listed := statement.columnsFor columns
    let fetched := (statement.fetchRest client world columns layout).result
    ((∃ set, fetched = .ok set) ↔
      ∀ row ∈ results.rows, (openCells statement.cipher listed (rest row)).result = .ok ())
    ∧ (∀ cipher, statement.cipher = some cipher → listed.Nodup →
      (∀ row ∈ results.rows, cipher.Decrypts listed (rest row)) → ∃ set, fetched = .ok set)
    ∧ ∀ set, fetched = .ok set → ∃ groups, set = .grouped groups
      ∧ Grouping (fun row => opened statement.cipher listed (rest row)) results.rows groups := by
  intro rest listed fetched
  let pass := openRowSet statement.cipher listed (results.shaped (statement.layoutFor layout))
  obtain ⟨goes, shape⟩ : (pass.result = .ok () ↔ _) ∧ _ := openRowSet_grouped named grouped
  have answer : ∀ set, fetched = .ok set ↔ pass.result = .ok () ∧ pass.row = set := by
    intro set
    rw [show fetched = pass.result.map fun _ => pass.row from fetchRest_result columns layout given]
    cases pass.result <;> simp [Except.map]
  have succeeds : (∃ set, fetched = .ok set) ↔
      ∀ row ∈ results.rows, (openCells statement.cipher listed (rest row)).result = .ok () := by
    rw [← goes]
    constructor
    · rintro ⟨set, done⟩
      exact ((answer set).mp done).1
    · exact fun went => ⟨pass.row, (answer _).mpr ⟨went, rfl⟩⟩
  refine ⟨succeeds, ?_, ?_⟩
  · intro cipher ciphered distinct decrypts
    apply succeeds.mpr
    intro row member
    rw [ciphered]
    exact openCells_ok_of_decrypts ShapedRow.laws (ShapedRow.unaliased_ofRow _ _ _) distinct
      (decrypts row member)
  · intro set done
    obtain ⟨went, rfl⟩ := (answer set).mp done
    exact shape went

/-- A statement that groups by a column it decrypts. -/
def keyed : Statement Nat where
  handle := 0
  sql := "SELECT k, n FROM t"
  expansions := .empty
  sealedColumns := ["k"]
  cipher := some (Sample.tag none)
  layout := ⟨.columns, true⟩
  state := .executed

/-- Two ciphertexts of one plaintext, up to padding. -/
def keyedScript : Sample.Script :=
  ⟨some ["k", "n"],
    [.ofNames ["k", "n"] [.text "enc:a", .int 1], .ofNames ["k", "n"] [.text "enc:a ", .int 2]],
    true, none, none, none, none⟩

theorem groups_of_ciphertexts :
    ∃ groups, (keyed.fetchRest keyedScript.client Sample.Script.start none none).result =
        .ok (.grouped groups)
      ∧ groups.map (·.groupIdentity) = [.text "enc:a", .text "enc:a "] := by
  obtain ⟨-, goes, shape⟩ := @fetchRest_groups_stored_cells _ _ keyedScript.client
    Sample.Script.start keyed none none _ ["k", "n"] rfl rfl rfl
  obtain ⟨set, done⟩ := goes (Sample.tag none) rfl (by decide) (by
    -- The rest of a row has no column `k`.
    intro row member column listed value found visible
    obtain rfl := List.mem_singleton.mp listed
    contradiction)
  obtain ⟨groups, rfl, grouping⟩ := shape set done
  exact ⟨groups, done, grouping.order⟩

/-- Both first cells are decrypted to one text, and yet the rows are apart, under keys that
    are ciphertexts. -/
theorem equal_plaintexts_apart :
    "k" ∈ keyed.sealedColumns
    ∧ (∀ ciphertext ∈ ["enc:a", "enc:a "],
      ((Sample.tag none).decrypt ciphertext).map Text.withoutPadding = .ok "a")
    ∧ (keyed.fetchRest keyedScript.client Sample.Script.start none none).result =
      .ok (.grouped
        [⟨.text "enc:a", [.columns (.ofNames ["n"] [.int 1])]⟩,
         ⟨.text "enc:a ", [.columns (.ofNames ["n"] [.int 2])]⟩]) := by
  refine ⟨by decide, ?_, rfl⟩
  intro ciphertext member
  rcases List.mem_pair.mp member with rfl | rfl <;> rfl

end Statement

end SealedColumns
