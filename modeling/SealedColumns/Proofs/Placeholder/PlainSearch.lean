import Mathlib.Data.Nat.Find
import SealedColumns.Proofs.Placeholder.FreshNames

/-!
The search for new names begun at zero each time. A search that goes on from a hint
passes over candidates without looking at them. All of these are in use: they were found
to be, or were taken, when the search came past them, and no name is given back. So both
searches end at the same candidate, and a renaming makes the names that one without hints
would make.
-/

namespace SealedColumns.Placeholder

theorem exists_free (used : List String) (base : String) : ∃ suffix, candidate base suffix ∉ used :=
  ⟨_, free_firstFree used base 0⟩

/-- The smallest suffix whose candidate is not in use. -/
def smallestFree (used : List String) (base : String) : Nat := Nat.find (exists_free used base)

/-- The names made for the repeated ones among the last names of a text, in order, each behind
    the name it is made for. A name is free if it is neither in the text nor `made` before. -/
def plainlyMade (text made : List String) : List String → List (String × String)
  | [] => []
  | name :: rest =>
      if 2 ≤ text.count name then
        let fresh := candidate name (smallestFree (text ++ made) name)
        (name, fresh) :: plainlyMade text (made ++ [fresh]) rest
      else plainlyMade text made rest

theorem smallestFree_congr {used others : List String} (same : ∀ name, name ∈ used ↔ name ∈ others)
    (base : String) : smallestFree used base = smallestFree others base :=
  Nat.find_congr' (not_congr (same _))

namespace Naming

/-- Candidates before the hint of their base are in use. -/
def Covered (naming : Naming) : Prop :=
  ∀ base suffix, suffix < naming.hint base → candidate base suffix ∈ naming.used

variable {naming : Naming}

theorem freeSuffix_eq_smallestFree (covered : naming.Covered) (base : String) :
    naming.freeSuffix base = smallestFree naming.used base := by
  symm
  refine (Nat.find_eq_iff _).mpr ⟨naming.free_freeSuffix base, fun suffix below free => free ?_⟩
  rcases Nat.lt_or_ge suffix (naming.hint base) with before | after
  · exact covered base suffix before
  · exact taken_below_firstFree naming.used base _ _ suffix after below

theorem hint_insert (naming : Naming) (used : List String) (base other : String) (suffix : Nat) :
    hint ⟨used, naming.hints.insert base suffix⟩ other =
      if other = base then suffix else naming.hint other := by
  unfold hint
  dsimp only
  rw [NameMap.get?_insert]
  split <;> rfl

/-- A counter may go on to a suffix if the candidates up to it are in use by then. -/
theorem Covered.insert {used : List String} {base : String} {stop : Nat}
    (covered : naming.Covered) (kept : naming.used ⊆ used)
    (passed : ∀ suffix, suffix < stop → candidate base suffix ∈ used) :
    Covered ⟨used, naming.hints.insert base stop⟩ := by
  intro other suffix below
  rw [hint_insert] at below
  by_cases same : other = base
  · rw [if_pos same] at below
    exact same ▸ passed suffix below
  · rw [if_neg same] at below
    exact kept (covered other suffix below)

theorem Covered.take (covered : naming.Covered) (base : String) : (naming.take base).Covered := by
  apply covered.insert (List.subset_cons_self _ _)
  intro suffix below
  rcases Nat.eq_or_lt_of_le (Nat.le_of_lt_succ below) with taken | before
  · rw [taken]
    exact List.mem_cons_self
  · -- What is smaller than the smallest free suffix is not free.
    rw [freeSuffix_eq_smallestFree covered] at before
    exact List.mem_cons_of_mem _ (not_not.mp (Nat.find_min _ before))

theorem edits_plainlyMade {text made : List String} (covered : naming.Covered)
    (known : ∀ name, name ∈ naming.used ↔ name ∈ text ++ made) (occurrences : List Occurrence) :
    (naming.edits (occurrences.filter fun found => 2 ≤ text.count found.name)).map
        (fun edit => (edit.base, edit.name)) =
      plainlyMade text made (occurrences.map (·.name)) := by
  induction occurrences generalizing naming made with
  | nil => rfl
  | cons found rest ih =>
      rw [List.map_cons, plainlyMade]
      split
      · next again =>
        have suffix : naming.freeSuffix found.name = smallestFree (text ++ made) found.name := by
          rw [freeSuffix_eq_smallestFree covered, smallestFree_congr known]
        have taken : ∀ name, name ∈ (naming.take found.name).used ↔
            name ∈ text ++ (made ++ [candidate found.name (naming.freeSuffix found.name)]) := by
          intro name
          rw [used_take, List.mem_cons, known, ← List.append_assoc, List.mem_append (t := [_]),
            List.mem_singleton, or_comm]
        have later := ih (covered.take found.name) taken
        rw [List.filter_cons_of_pos (by simpa using again), edits, List.map_cons, later, suffix]
      · next single =>
        rw [List.filter_cons_of_neg (by simpa using single)]
        exact ih covered known

end Naming

theorem covered_start (used : List String) : Naming.Covered ⟨used, .empty⟩ :=
  fun _ _ below => absurd below (Nat.not_lt_zero _)

theorem map_name_placesFrom (start target : Nat) (edits : List Edit) :
    (placesFrom start target edits).map (·.name) = edits.map (·.name) := by
  induction edits generalizing start target with
  | nil => rfl
  | cons edit rest ih => rw [placesFrom, List.map_cons, List.map_cons, ih]

theorem edits_rename_plainlyMade (sql : String) :
    (editsOf (scan sql)).map (fun edit => (edit.base, edit.name)) =
      plainlyMade (namesOf sql) [] (namesOf sql) := by
  have known : ∀ name, name ∈ (scan sql).counts.names ↔ name ∈ namesOf sql ++ [] := by
    intro name
    rw [List.append_nil]
    exact mem_names_counts sql name
  have counted : ∀ name, countOf (scan sql).counts name = (namesOf sql).count name :=
    countOf_scan sql
  rw [editsOf]
  simp only [counted]
  exact Naming.edits_plainlyMade (covered_start _) known _

/-- The names that a renaming makes, and those which it makes for one base, are the names found
    in a search that begins again at zero for every occurrence. -/
theorem rename_makes_smallest_free (sql : String) :
    (rename sql).replacements.map (·.name) =
        (plainlyMade (namesOf sql) [] (namesOf sql)).map (·.2)
      ∧ ∀ base, (rename sql).expansions.generated base =
        ((plainlyMade (namesOf sql) [] (namesOf sql)).filter fun pair => pair.1 == base).map
          (·.2) := by
  rw [← edits_rename_plainlyMade]
  constructor
  · rw [rename_eq]
    dsimp only
    rw [map_name_placesFrom, List.map_map]
    rfl
  · intro base
    rw [expansions_rename, generated_tableOf, List.filter_map, List.map_map]
    rfl

/-- The candidate `a_0` is a repeated name of the text, with candidates of its own. -/
example : plainlyMade ["a", "a_0", "a", "a_0", "a_2", "a"] [] ["a", "a_0", "a", "a_0", "a_2", "a"] =
    [("a", "a_1"), ("a_0", "a_0_0"), ("a", "a_3"), ("a_0", "a_0_1"), ("a", "a_4")] := by
  decide +kernel

end SealedColumns.Placeholder
