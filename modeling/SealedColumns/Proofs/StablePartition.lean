import Mathlib.Data.List.Range
import SealedColumns.Proofs.Filling

/-!
Grouping as a stable partition. Every row of a filled result set stands in one group, together
with the rows whose first cells are null as its own, or have its text form, or are its bytes that
are not UTF-8. Groups follow one another as their first rows do, and so do the rows in a group.
Rows are told apart by their numbers, as a set may hold a row twice.
-/

namespace SealedColumns

/-! Cells of one group. -/

/-- Both are null, or they have one text form, or are the same bytes that are not UTF-8. -/
inductive Value.SharesGroup : Value → Value → Prop where
  | null : SharesGroup .null .null
  | text {left right : Value} {form : String} (here : left.toText? = some form)
      (there : right.toText? = some form) : SharesGroup left right
  | bytes {data : List UInt8} (notText : Text.decode? data = none) :
      SharesGroup (.blob data) (.blob data)

/-- What an identity says about the cell that has it. -/
inductive Value.IdentifiedBy : Value → GroupIdentity → Prop where
  | null : IdentifiedBy .null .null
  | text {value : Value} {form : String} (found : value.toText? = some form) :
      IdentifiedBy value (.text form)
  | bytes {data : List UInt8} (notText : Text.decode? data = none) :
      IdentifiedBy (.blob data) (.bytes data)

theorem Value.identifiedBy (value : Value) : value.IdentifiedBy value.groupIdentity := by
  unfold groupIdentity
  cases found : value.toText? with
  | some form => exact .text found
  | none =>
      rcases (toText?_eq_none_iff value).mp found with rfl | ⟨data, rfl, notText⟩
      · exact .null
      · exact .bytes notText

theorem Value.IdentifiedBy.shares {left right : Value} {identity : GroupIdentity}
    (here : left.IdentifiedBy identity) (there : right.IdentifiedBy identity) :
    left.SharesGroup right := by
  cases here with
  | null =>
      cases there
      exact .null
  | text here =>
      cases there with
      | text there => exact .text here there
  | bytes notText =>
      cases there
      exact .bytes notText

theorem Value.groupIdentity_eq_iff (left right : Value) :
    left.groupIdentity = right.groupIdentity ↔ left.SharesGroup right := by
  constructor
  · intro same
    exact left.identifiedBy.shares (same ▸ right.identifiedBy)
  · intro shares
    cases shares with
    | null => rfl
    | text here there =>
        unfold groupIdentity
        rw [here, there]
    | bytes notText => rfl

/-! Partitions of a list into blocks of numbered items. -/

/-- Every item stands in one block, in which are the items that are the same as it is; blocks are
    in the order of their first items, and each is in the order of the list. -/
structure StablePartition {α : Type} (same : α → α → Prop) (items : List α)
    (blocks : List (List (α × Nat))) : Prop where
  once : blocks.flatten.Perm items.zipIdx
  inhabited : [] ∉ blocks
  together : ∀ block ∈ blocks, ∀ left ∈ block, ∀ right ∈ items.zipIdx,
    right ∈ block ↔ same left.1 right.1
  led : blocks.Pairwise fun before after =>
    ∀ first ∈ before.head?, ∀ other ∈ after, first.2 < other.2
  inOrder : ∀ block ∈ blocks, block.Pairwise fun left right => left.2 < right.2

section Blocks
variable {α κ : Type} [DecidableEq κ]

/-- The numbered items under a key. -/
def block (key : α → κ) (items : List α) (wanted : κ) : List (α × Nat) :=
  items.zipIdx.filter fun item => key item.1 = wanted

/-- The blocks of all keys, in the order in which the keys come first. -/
def blocksBy (key : α → κ) (items : List α) : List (List (α × Nat)) :=
  (items.map key).eraseDups.map (block key items)

theorem perm_flatMap_filter (key : α → κ) (items : List α) {keys : List κ}
    (distinct : keys.Nodup) :
    (keys.flatMap fun wanted => items.filter fun item => key item = wanted).Perm
      (items.filter fun item => key item ∈ keys) := by
  induction keys with
  | nil => simp
  | cons first rest ih =>
      obtain ⟨fresh, tail⟩ := List.nodup_cons.mp distinct
      have split := List.filter_append_perm (fun item => decide (key item = first))
        (items.filter fun item => key item ∈ first :: rest)
      rw [List.filter_filter, List.filter_filter] at split
      rw [List.flatMap_cons]
      -- Items under the first key stand in no other block, as the keys are distinct.
      refine (((ih tail).append_left _).trans (.of_eq ?_)).trans split
      congr 1
      · apply List.filter_congr
        intro item _
        simp +contextual
      · apply List.filter_congr
        intro item _
        by_cases same : key item = first
        · simp [same, fresh]
        · simp [same]

/-- Before a key occurs, those have occurred that come before it without repetitions. -/
theorem pairwise_eraseDups (keys : List κ) :
    keys.eraseDups.Pairwise fun left right =>
      ∀ later : Nat, keys[later]? = some right → ∃ earlier < later, keys[earlier]? = some left := by
  induction keys using List.reverseRecOn with
  | nil => simp
  | append_singleton before last ih =>
      have occurs : ∀ wanted ∈ before.eraseDups,
          ∃ earlier < before.length, (before ++ [last])[earlier]? = some wanted := by
        intro wanted member
        obtain ⟨earlier, inside, rfl⟩ := List.getElem_of_mem (List.mem_eraseDups.mp member)
        refine ⟨earlier, inside, ?_⟩
        rw [List.getElem?_append_left inside, List.getElem?_eq_getElem inside]
      rw [eraseDups_append_singleton]
      apply List.pairwise_append.mpr
      refine ⟨?_, ?_, ?_⟩
      · apply ih.imp_of_mem
        intro left right here _ led later found
        by_cases inside : later < before.length
        · rw [List.getElem?_append_left inside] at found
          obtain ⟨earlier, sooner, known⟩ := led later found
          refine ⟨earlier, sooner, ?_⟩
          rwa [List.getElem?_append_left (sooner.trans inside)]
        · -- Behind all of `before`, in which every one of these keys occurs.
          obtain ⟨earlier, inside, known⟩ := occurs left here
          exact ⟨earlier, by omega, known⟩
      · split <;> simp
      · intro left here right there later found
        split at there
        · contradiction
        · next fresh =>
          obtain rfl := List.mem_singleton.mp there
          obtain ⟨earlier, inside, known⟩ := occurs left here
          refine ⟨earlier, ?_, known⟩
          by_contra early
          rw [List.getElem?_append_left (by omega)] at found
          exact fresh (List.mem_of_getElem? found)

section Block
variable {key : α → κ} {items : List α} {wanted : κ}

theorem mem_block_iff {item : α × Nat} :
    item ∈ block key items wanted ↔ items[item.2]? = some item.1 ∧ key item.1 = wanted := by
  rw [block, List.mem_filter, List.mem_zipIdx_iff_getElem?, decide_eq_true_eq]

theorem exists_mem_block {position : Nat} (found : (items.map key)[position]? = some wanted) :
    ∃ item, (item, position) ∈ block key items wanted := by
  rw [List.getElem?_map] at found
  obtain ⟨item, known⟩ := Option.map_eq_some_iff.mp found
  exact ⟨item, mem_block_iff.mpr known⟩

theorem map_fst_block :
    (block key items wanted).map (·.1) = items.filter fun item => key item = wanted := by
  conv_rhs => rw [← List.zipIdx_map_fst 0 items, List.filter_map]
  rfl

theorem pairwise_block :
    (block key items wanted).Pairwise fun left right => left.2 < right.2 := by
  apply List.Pairwise.filter
  apply List.pairwise_map.mp
  rw [List.zipIdx_map_snd]
  exact List.pairwise_lt_range' 1

theorem head_block_le {first : α × Nat} {position : Nat}
    (leads : (block key items wanted).head? = some first)
    (found : (items.map key)[position]? = some wanted) : first.2 ≤ position := by
  obtain ⟨item, member⟩ := exists_mem_block found
  obtain ⟨rest, split⟩ := List.head?_eq_some_iff.mp leads
  have sorted : (first :: rest).Pairwise fun left right => left.2 < right.2 :=
    split ▸ pairwise_block
  rw [split] at member
  rcases List.mem_cons.mp member with rfl | behind
  · exact Nat.le_refl _
  · exact (List.rel_of_pairwise_cons sorted behind).le

end Block

theorem stablePartition_blocksBy (key : α → κ) (items : List α) :
    StablePartition (fun left right => key left = key right) items (blocksBy key items) := by
  refine { once := ?_, inhabited := ?_, together := ?_, led := ?_, inOrder := ?_ }
  · have gathered := perm_flatMap_filter (fun item : α × Nat => key item.1) items.zipIdx
      (nodup_eraseDups (items.map key))
    rw [List.filter_eq_self.mpr] at gathered
    · rwa [blocksBy, ← List.flatMap_def]
    · intro item member
      apply decide_eq_true
      rw [List.mem_eraseDups]
      exact List.mem_map_of_mem (List.fst_mem_of_mem_zipIdx member)
  · intro empty
    obtain ⟨wanted, present, none⟩ := List.mem_map.mp empty
    obtain ⟨position, found⟩ := List.mem_iff_getElem?.mp (List.mem_eraseDups.mp present)
    obtain ⟨item, member⟩ := exists_mem_block found
    rw [none] at member
    contradiction
  · intro block present left here right there
    obtain ⟨wanted, -, rfl⟩ := List.mem_map.mp present
    obtain ⟨-, rfl⟩ := mem_block_iff.mp here
    rw [mem_block_iff, ← List.mem_zipIdx_iff_getElem?, and_iff_right there]
    exact eq_comm
  · apply List.pairwise_map.mpr
    apply (pairwise_eraseDups (items.map key)).imp
    intro left right sooner first leads other member
    obtain ⟨stored, rfl⟩ := mem_block_iff.mp member
    obtain ⟨position, before, found⟩ := sooner other.2 (by rw [List.getElem?_map, stored]; rfl)
    exact (head_block_le leads found).trans_lt before
  · intro block present
    obtain ⟨wanted, -, rfl⟩ := List.mem_map.mp present
    exact pairwise_block

end Blocks

/-! The groups of a result set. -/

theorem Grouping.stablePartition {part : Row → ShapedRow} {rows : List Row}
    {groups : List KeyedRows} (grouping : Grouping part rows groups) :
    ∃ blocks,
      StablePartition (fun left right => left.firstCell.SharesGroup right.firstCell) rows blocks
      ∧ groups.map (·.rows) = blocks.map (·.map fun item => part item.1)
      ∧ groups.map (some ·.key) = blocks.map (·.head?.map (·.1.firstCell)) := by
  have stored : ∀ identity,
      (block Row.groupIdentity rows identity).map (·.1) = rowsSharing identity rows :=
    fun _ => map_fst_block
  refine ⟨blocksBy Row.groupIdentity rows, ?_, ?_, ?_⟩
  · have blocks := stablePartition_blocksBy Row.groupIdentity rows
    simpa only [Value.groupIdentity_eq_iff] using blocks
  · rw [blocksBy, ← grouping.order, List.map_map, List.map_map]
    apply List.map_congr_left
    intro group member
    rw [grouping.gathered group member, ← stored, List.map_map]
    rfl
  · rw [blocksBy, ← grouping.order, List.map_map, List.map_map]
    apply List.map_congr_left
    intro group member
    rw [← grouping.key group member, ← stored, List.head?_map, Option.map_map]
    rfl

theorem StablePartition.length_flatten {α : Type} {same : α → α → Prop} {items : List α}
    {blocks : List (List (α × Nat))} (partition : StablePartition same items blocks) :
    blocks.flatten.length = items.length := by
  rw [partition.once.length_eq, List.length_zipIdx]

/-- However a set was filled, grouping it loses no row and shows none twice: its rows, told apart
    by their numbers, stand in blocks of those whose first cells share a group, in order, and for
    each block there is a group that bears the first cell of the first row and shows what is left
    of the rows, under the names of the set behind the first. -/
theorem groups_partition_filled (fillings : List Filling) (kind : RowKind) :
    let results := ResultSet.filled fillings
    let names := results.names?.getD []
    let rest (row : Row) : ShapedRow :=
      .ofRow kind (.ofNames (names.drop 1) (row.values.drop 1))
    let grouped := results.shaped ⟨kind, true⟩
    grouped.size = results.rows.length
    ∧ grouped.size = results.affected
    ∧ grouped.size = (results.shaped ⟨kind, false⟩).size
    ∧ ∃ groups blocks, grouped = .grouped groups
      ∧ StablePartition
        (fun left right => (left.values.headD .null).SharesGroup (right.values.headD .null))
        results.rows blocks
      ∧ groups.map (·.rows) = blocks.map (·.map fun item => rest item.1)
      ∧ groups.map (some ·.key) = blocks.map (·.head?.map (·.1.values.headD .null)) := by
  intro results names rest grouped
  have sound := ResultSet.sound_filled fillings
  have gathered := grouping_groupRows kind (names.drop 1) results.rows
  obtain ⟨blocks, partition, shown, keyed⟩ := gathered.stablePartition
  have shape : grouped = .grouped (groupRows kind (names.drop 1) results.rows) :=
    sound.shaped_grouped kind
  have size : grouped.size = results.rows.length := by
    rw [shape, RowSet.size, RowSet.rows, List.flatMap_def, shown, ← List.map_flatten,
      List.length_map, partition.length_flatten]
  refine ⟨size, ?_, ?_, _, blocks, shape, partition, shown, keyed⟩
  · rw [size, sound.affected_eq]
  · rw [size]
    exact (List.length_map _).symm

/-- Rows under a number, under null, under the text of the number, and a row without cells. -/
def wards : List Filling :=
  [.names ["ward", "name"], .values [.int 7, .text "Ada"], .values [.null, .text "Ben"],
    .values [.text "7", .text "Cy"], .values []]

/-- The text is with the number, and the row without cells is with null. -/
theorem wards_in_two_groups :
    let results := ResultSet.filled wards
    ∃ groups blocks, results.shaped ⟨.columns, true⟩ = .grouped groups
      ∧ StablePartition
        (fun left right => (left.values.headD .null).SharesGroup (right.values.headD .null))
        results.rows blocks
      ∧ groups.map (·.key) = [.int 7, .null]
      ∧ groups.map (·.rows) =
        [[.columns (.ofNames ["name"] [.text "Ada"]), .columns (.ofNames ["name"] [.text "Cy"])],
         [.columns (.ofNames ["name"] [.text "Ben"]), .columns (.ofNames ["name"] [])]]
      ∧ blocks.map (·.length) = [2, 2] := by
  intro results
  obtain ⟨-, -, -, groups, blocks, shape, partition, shown, -⟩ :=
    groups_partition_filled wards .columns
  cases shape
  refine ⟨_, blocks, rfl, partition, rfl, rfl, ?_⟩
  have sizes := congrArg (List.map List.length) shown
  simp only [List.map_map, Function.comp_def, List.length_map] at sizes
  exact sizes.symm

end SealedColumns
