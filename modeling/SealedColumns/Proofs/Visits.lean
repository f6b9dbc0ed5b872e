import SealedColumns.Proofs.Grouping
import SealedColumns.Proofs.Sealing

/-!
The order in which a sealing pass visits keys. Columns come in the order of their list;
each brings the bare key and the key with the sigil of its own name and then of every name
generated for it, and a key that came before is left out. So a key belongs to the first
column that brings it, and a column that is listed again brings nothing new.
-/

namespace SealedColumns

open Placeholder (Expansions)
open Parameters (KeyOf)

/-- The keys of a column and of the names generated for it. -/
def keysOfColumn (table : Expansions) (column : String) : List String :=
  (column :: table.generated column).flatMap fun name => [name, sigilKey name]

def visits (columns : List String) (table : Expansions) : List String :=
  (columns.flatMap (keysOfColumn table)).eraseDups

/-- Some column has the key, for itself or for a name generated for it. -/
def Reached (columns : List String) (table : Expansions) (key : String) : Prop :=
  ∃ column ∈ columns, ∃ name ∈ column :: table.generated column, KeyOf name key

/-! First visits. -/

theorem eraseDups_filter {α : Type} [DecidableEq α] (keep : α → Bool) (items : List α) :
    (items.filter keep).eraseDups = items.eraseDups.filter keep := by
  induction items using List.reverseRecOn with
  | nil => rfl
  | append_singleton before last ih =>
      rw [List.filter_append, eraseDups_append_singleton, List.filter_append, ← ih]
      cases kept : keep last with
      | true =>
          have same : last ∈ before.filter keep ↔ last ∈ before := by simp [kept]
          rw [List.filter_cons_of_pos kept, List.filter_nil, eraseDups_append_singleton]
          by_cases seen : last ∈ before
          · rw [if_pos seen, if_pos (same.mpr seen), List.filter_nil]
          · rw [if_neg seen, if_neg (mt same.mp seen), List.filter_cons_of_pos kept,
              List.filter_nil]
      | false =>
          have hidden : (if last ∈ before then [] else [last]).filter keep = [] := by
            split <;> simp [kept]
          rw [List.filter_cons_of_neg (by simp [kept]), List.filter_nil, List.append_nil, hidden,
            List.append_nil]

theorem keys_firstVisits (targets : List Target) :
    (firstVisits targets).map (·.key) = (targets.map (·.key)).eraseDups := by
  induction targets with
  | nil => rfl
  | cons first rest ih =>
      have others : ((firstVisits rest).filter fun later => later.key != first.key).map (·.key) =
          ((firstVisits rest).map (·.key)).filter fun key => key != first.key := by
        rw [List.filter_map]
        rfl
      rw [firstVisits, List.map_cons, List.map_cons, List.eraseDups_cons, others, ih,
        ← eraseDups_filter]
      rfl

theorem firstVisits_append (before after : List Target) :
    firstVisits (before ++ after) =
      firstVisits before
        ++ (firstVisits after).filter fun target => target.key ∉ before.map (·.key) := by
  induction before with
  | nil => simp [firstVisits]
  | cons first rest ih =>
      rw [List.cons_append, firstVisits, ih, List.filter_append, List.filter_filter, firstVisits,
        List.cons_append]
      congr 2
      apply List.filter_congr
      intro target _
      rw [Bool.eq_iff_iff]
      simp

/-- A first visit is the first target with its key. -/
theorem find?_of_mem_firstVisits {targets : List Target} {target : Target}
    (member : target ∈ firstVisits targets) :
    targets.find? (fun other => other.key = target.key) = some target := by
  induction targets with
  | nil => contradiction
  | cons first rest ih =>
      rcases List.mem_cons.mp member with rfl | later
      · exact List.find?_cons_of_pos (by simp)
      · obtain ⟨visited, differ⟩ := List.mem_filter.mp later
        have apart : first.key ≠ target.key := (bne_iff_ne.mp differ).symm
        rw [List.find?_cons_of_neg (by simpa using apart)]
        exact ih visited

/-! Targets and columns. -/

section Columns
variable {columns : List String} {table : Expansions} {key : String}

theorem keys_targetsOfColumn (table : Expansions) (column : String) :
    (targetsOfColumn table column).map (·.key) = keysOfColumn table column :=
  List.map_flatMap

theorem column_of_mem_targetsOfColumn {column : String} {target : Target}
    (member : target ∈ targetsOfColumn table column) : target.column = column := by
  obtain ⟨name, -, ofName⟩ := List.mem_flatMap.mp member
  rcases List.mem_pair.mp ofName with rfl | rfl <;> rfl

theorem keys_targetsOf (columns : List String) (table : Expansions) :
    (targetsOf columns table).map (·.key) = visits columns table := by
  rw [targetsOf, keys_firstVisits, visits, List.map_flatMap]
  simp only [keys_targetsOfColumn]

theorem nodup_visits (columns : List String) (table : Expansions) :
    (visits columns table).Nodup := nodup_eraseDups _

theorem mem_visits : key ∈ visits columns table ↔ Reached columns table key := by
  rw [← keys_targetsOf]
  exact mem_keys_targetsOf columns table key

/-- The column of a target is the first that has its key. -/
theorem find?_column_of_mem_targetsOf {target : Target}
    (member : target ∈ targetsOf columns table) :
    columns.find? (fun column => target.key ∈ keysOfColumn table column) =
      some target.column := by
  have first := find?_of_mem_firstVisits member
  clear member
  induction columns with
  | nil => contradiction
  | cons column rest ih =>
      rw [List.flatMap_cons, List.find?_append] at first
      cases found : (targetsOfColumn table column).find? (fun other => other.key = target.key) with
      | some other =>
          rw [found] at first
          obtain rfl := Option.some.inj first
          have here := List.mem_of_find?_eq_some found
          have keyed : other.key ∈ keysOfColumn table column := by
            rw [← keys_targetsOfColumn]
            exact List.mem_map_of_mem here
          rw [List.find?_cons_of_pos (by simpa using keyed), column_of_mem_targetsOfColumn here]
      | none =>
          rw [found] at first
          have unkeyed : target.key ∉ keysOfColumn table column := by
            rw [← keys_targetsOfColumn]
            intro keyed
            obtain ⟨other, inside, same⟩ := List.mem_map.mp keyed
            simpa [same] using List.find?_eq_none.mp found other inside
          rw [List.find?_cons_of_neg (by simpa using unkeyed)]
          exact ih first

/-- Listing a column again adds no target. -/
theorem targetsOf_eraseDups (columns : List String) (table : Expansions) :
    targetsOf columns.eraseDups table = targetsOf columns table := by
  unfold targetsOf
  induction columns using List.reverseRecOn with
  | nil => rfl
  | append_singleton before last ih =>
      rw [eraseDups_append_singleton, List.flatMap_append, List.flatMap_append,
        firstVisits_append, firstVisits_append, ih]
      have members : ∀ key, key ∈ (before.eraseDups.flatMap (targetsOfColumn table)).map (·.key) ↔
          key ∈ (before.flatMap (targetsOfColumn table)).map (·.key) := by
        intro key
        rw [← mem_keys_firstVisits, ih, mem_keys_firstVisits]
      congr 1
      by_cases seen : last ∈ before
      · rw [if_pos seen]
        -- All keys of the column came when it was listed first.
        symm
        apply List.filter_eq_nil_iff.mpr
        intro target member
        have visited : target.key ∈ ([last].flatMap (targetsOfColumn table)).map (·.key) :=
          (mem_keys_firstVisits _ _).mp (List.mem_map_of_mem member)
        rw [List.flatMap_singleton] at visited
        have earlier : target.key ∈ (before.flatMap (targetsOfColumn table)).map (·.key) := by
          rw [List.map_flatMap]
          exact List.mem_flatMap.mpr ⟨last, seen, visited⟩
        rw [decide_eq_true_eq]
        exact not_not_intro earlier
      · rw [if_neg seen]
        exact List.filter_congr fun target _ => decide_eq_decide.mpr (not_congr (members target.key))

end Columns

end SealedColumns
