import Mathlib.Data.List.Dedup
import SealedColumns.Proofs.Placeholder.PlainSearch
import SealedColumns.Proofs.Placeholder.Slices

/-!
The search for new names as a loop that knows no bound. A step tries one candidate for the
repeated name whose turn it is and counts on the suffix of that name; if the candidate is not in
use then it is taken, and it is the turn of the next occurrence. The candidates which a counter
has passed differ and are in use, so no counter exceeds the number of names in use. These are the
names of the text and one for each occurrence replaced, so the search ends.
-/

namespace SealedColumns.Placeholder

/-- The names in use and the counters, and the repeated names still to be replaced. -/
structure Search where
  naming : Naming
  left : List String

namespace Search

def start (found : Scan) : Search :=
  ⟨⟨found.counts.names, .empty⟩,
    (found.occurrences.map (·.name)).filter fun name => 2 ≤ countOf found.counts name⟩

/-- Tries one candidate. -/
def next (search : Search) : Search :=
  match search.left with
  | [] => search
  | base :: rest =>
      let suffix := search.naming.hint base
      let hints := search.naming.hints.insert base (suffix + 1)
      if candidate base suffix ∈ search.naming.used then
        ⟨⟨search.naming.used, hints⟩, base :: rest⟩
      else ⟨⟨candidate base suffix :: search.naming.used, hints⟩, rest⟩

def after (search : Search) : Nat → Search
  | 0 => search
  | steps + 1 => (search.after steps).next

/-- The base and the suffix of the candidate that a step tries. -/
def upcoming? (search : Search) : Option (String × Nat) :=
  search.left.head?.map fun base => (base, search.naming.hint base)

def tries (search : Search) (steps : Nat) : List (String × Nat) :=
  (List.range steps).filterMap fun step => (search.after step).upcoming?

/-- The suffixes that so many steps try for a base. -/
def triedFor (search : Search) (base : String) (steps : Nat) : List Nat :=
  ((search.tries steps).filter fun tried => tried.1 == base).map (·.2)

theorem after_add (search : Search) (first second : Nat) :
    search.after (first + second) = (search.after first).after second := by
  induction second with
  | zero => rfl
  | succ second ih => exact congrArg next ih

end Search

/-! One step. -/

namespace Naming
variable {naming : Naming} {base : String}

/-- Counts on past a candidate. -/
def pass (naming : Naming) (base : String) : Naming :=
  { naming with hints := naming.hints.insert base (naming.hint base + 1) }

theorem Covered.pass (covered : naming.Covered)
    (taken : candidate base (naming.hint base) ∈ naming.used) : (naming.pass base).Covered := by
  apply covered.insert (List.Subset.refl _)
  intro suffix below
  rcases Nat.eq_or_lt_of_le (Nat.le_of_lt_succ below) with last | before
  · exact last ▸ taken
  · exact covered base suffix before

theorem firstFree_of_free {used : List String} {suffix : Nat} (steps : Nat)
    (free : candidate base suffix ∉ used) : firstFree used base steps suffix = suffix := by
  cases steps with
  | zero => rfl
  | succ steps => rw [firstFree, if_neg free]

/-- A candidate that is passed over is not the one that will be taken. -/
theorem freeSuffix_pass (covered : naming.Covered)
    (taken : candidate base (naming.hint base) ∈ naming.used) :
    (naming.pass base).freeSuffix base = naming.freeSuffix base := by
  rw [freeSuffix_eq_smallestFree (covered.pass taken), freeSuffix_eq_smallestFree covered]
  rfl

theorem take_pass (covered : naming.Covered)
    (taken : candidate base (naming.hint base) ∈ naming.used) :
    (naming.pass base).take base = naming.take base := by
  have hints : (naming.pass base).hints.insert base (naming.freeSuffix base + 1) =
      naming.hints.insert base (naming.freeSuffix base + 1) := by
    apply NameMap.ext_get?
    intro name
    simp only [pass, NameMap.get?_insert]
    split <;> rfl
  unfold take
  dsimp only
  rw [freeSuffix_pass covered taken, hints]
  rfl

theorem hint_lt_freeSuffix (covered : naming.Covered)
    (taken : candidate base (naming.hint base) ∈ naming.used) :
    naming.hint base < naming.freeSuffix base := by
  by_contra past
  rcases Nat.eq_or_lt_of_le (Nat.le_of_not_lt past) with last | before
  · exact naming.free_freeSuffix base (last ▸ taken)
  · exact naming.free_freeSuffix base (covered base _ before)

/-- The candidates that a counter has passed are different names in use. -/
theorem hint_le_length_used (covered : naming.Covered) (base : String) :
    naming.hint base ≤ naming.used.length := by
  have passed := length_le_of_taken naming.used base List.nodup_range
    fun suffix below => covered base suffix (List.mem_range.mp below)
  rwa [List.length_range] at passed

theorem used_foldl_take (naming : Naming) (occurrences : List Occurrence) :
    ((occurrences.map (·.name)).foldl take naming).used =
      ((naming.edits occurrences).map (·.name)).reverse ++ naming.used := by
  induction occurrences generalizing naming with
  | nil => rfl
  | cons found rest ih =>
      rw [List.map_cons, List.foldl_cons, ih, used_take, edits]
      simp

end Naming

namespace Search
variable {search : Search} {naming : Naming} {base : String} {rest : List String}

theorem next_of_taken (taken : candidate base (naming.hint base) ∈ naming.used) :
    next ⟨naming, base :: rest⟩ = ⟨naming.pass base, base :: rest⟩ := if_pos taken

theorem next_of_free (free : candidate base (naming.hint base) ∉ naming.used) :
    next ⟨naming, base :: rest⟩ = ⟨naming.take base, rest⟩ := by
  have here : naming.freeSuffix base = naming.hint base := Naming.firstFree_of_free _ free
  rw [Naming.take, here]
  exact if_neg free

theorem covered_next (covered : search.naming.Covered) : search.next.naming.Covered := by
  obtain ⟨naming, left⟩ := search
  cases left with
  | nil => exact covered
  | cons base rest =>
      by_cases taken : candidate base (naming.hint base) ∈ naming.used
      · rw [next_of_taken taken]
        exact covered.pass taken
      · rw [next_of_free taken]
        exact covered.take base

/-- The counter goes on for the name whose turn it is. -/
theorem hint_next (search : Search) (base : String) :
    search.next.naming.hint base =
      search.naming.hint base + if search.left.head? = some base then 1 else 0 := by
  obtain ⟨naming, left⟩ := search
  cases left with
  | nil => rfl
  | cons first rest =>
      have counted (used : List String) :
          Naming.hint ⟨used, naming.hints.insert first (naming.hint first + 1)⟩ base =
            naming.hint base + if first = base then 1 else 0 := by
        rw [Naming.hint_insert]
        by_cases same : base = first
        · simp [same]
        · simp [same, Ne.symm same]
      simp only [List.head?_cons, Option.some.injEq, next]
      split <;> exact counted _

/-- Each occurrence that is done has put one name in use. -/
theorem length_next (search : Search) :
    search.next.naming.used.length + search.next.left.length =
      search.naming.used.length + search.left.length := by
  obtain ⟨naming, left⟩ := search
  cases left with
  | nil => rfl
  | cons base rest =>
      rw [next]
      dsimp only
      split
      · rfl
      · rw [List.length_cons, List.length_cons, Nat.add_right_comm, Nat.add_assoc]

/-! All steps. -/

theorem covered_after (covered : search.naming.Covered) (steps : Nat) :
    (search.after steps).naming.Covered := by
  induction steps with
  | zero => exact covered
  | succ steps ih => exact covered_next ih

theorem length_after (search : Search) (steps : Nat) :
    (search.after steps).naming.used.length + (search.after steps).left.length =
      search.naming.used.length + search.left.length := by
  induction steps with
  | zero => rfl
  | succ steps ih => exact (length_next _).trans ih

/-- The suffixes tried for a base are those up to its counter, each of them once. -/
theorem triedFor_eq_range (fresh : search.naming.hint base = 0) (steps : Nat) :
    search.triedFor base steps = List.range ((search.after steps).naming.hint base) := by
  induction steps with
  | zero =>
      rw [after, fresh]
      rfl
  | succ steps ih =>
      have onward : search.triedFor base (steps + 1) = search.triedFor base steps ++
          if (search.after steps).left.head? = some base
            then [(search.after steps).naming.hint base] else [] := by
        unfold triedFor tries
        rw [List.range_succ, List.filterMap_append, List.filter_append, List.map_append]
        congr 1
        cases turn : (search.after steps).left.head? with
        | none => simp [upcoming?, turn]
        | some other => by_cases same : other = base <;> simp [upcoming?, turn, same]
      rw [onward, ih, after, hint_next]
      split
      · rw [List.range_succ]
      · rw [List.append_nil, Nat.add_zero]

/-- A search for one name ends with the candidate that is free. The candidates still to be
    passed get fewer. -/
theorem exists_after_take (covered : naming.Covered) (base : String) (rest : List String) :
    ∃ steps, after ⟨naming, base :: rest⟩ steps = ⟨naming.take base, rest⟩ := by
  induction gap : naming.freeSuffix base - naming.hint base generalizing naming with
  | zero =>
      refine ⟨1, next_of_free fun taken => ?_⟩
      exact absurd (Naming.hint_lt_freeSuffix covered taken) (by omega)
  | succ fewer ih =>
      by_cases taken : candidate base (naming.hint base) ∈ naming.used
      · have closer : (naming.pass base).freeSuffix base - (naming.pass base).hint base = fewer := by
          rw [Naming.freeSuffix_pass covered taken, Naming.pass, Naming.hint_insert, if_pos rfl]
          omega
        obtain ⟨steps, reached⟩ := ih (covered.pass taken) closer
        refine ⟨1 + steps, ?_⟩
        rw [after_add, ← Naming.take_pass covered taken, ← reached, after, after,
          next_of_taken taken]
      · exact ⟨1, next_of_free taken⟩

theorem exists_after_nil (covered : naming.Covered) (left : List String) :
    ∃ steps, after ⟨naming, left⟩ steps = ⟨left.foldl Naming.take naming, []⟩ := by
  induction left generalizing naming with
  | nil => exact ⟨0, rfl⟩
  | cons base rest ih =>
      obtain ⟨first, named⟩ := exists_after_take covered base rest
      obtain ⟨second, ended⟩ := ih (covered.take base)
      refine ⟨first + second, ?_⟩
      rw [after_add, named, ended]
      rfl

end Search

/-! The search in one statement. -/

def searchIn (sql : String) : Search := .start (scan sql)

/-- As many as there are different names and replaced occurrences. -/
def mostTries (sql : String) : Nat :=
  (namesOf sql).dedup.length + (rename sql).replacements.length

theorem left_searchIn (sql : String) :
    (searchIn sql).left =
      ((scan sql).occurrences.filter fun found =>
        2 ≤ countOf (scan sql).counts found.name).map (·.name) := List.filter_map

theorem names_replacements (sql : String) :
    (rename sql).replacements.map (·.name) = (editsOf (scan sql)).map (·.name) := by
  rw [rename_eq]
  exact map_name_placesFrom 0 0 _

theorem length_replacements (sql : String) :
    (rename sql).replacements.length = (searchIn sql).left.length := by
  have bases : ∀ (naming : Naming) (occurrences : List Occurrence),
      (naming.edits occurrences).length = occurrences.length := by
    intro naming occurrences
    simpa using congrArg List.length (places_edits naming occurrences)
  rw [← List.length_map (f := (·.name)), names_replacements, List.length_map, editsOf, bases,
    left_searchIn, List.length_map]

theorem length_names_counts (sql : String) :
    (scan sql).counts.names.length = (namesOf sql).dedup.length := by
  have same : (scan sql).counts.names.Perm (namesOf sql).dedup := by
    apply (List.perm_ext_iff_of_nodup (NameMap.nodup_names _) (List.nodup_dedup _)).mpr
    intro name
    rw [List.mem_dedup]
    exact mem_names_counts sql name
  exact same.length_eq

/-- Of two bytes each and in order, so many placeholders need twice as many bytes. -/
theorem two_mul_length_le {start size : Nat} {occurrences : List Occurrence} (begins : start ≤ size)
    (places : ∀ found ∈ occurrences,
      start ≤ found.position ∧ 2 ≤ found.length ∧ found.stop ≤ size)
    (ordered : occurrences.Pairwise fun first second => first.stop ≤ second.position) :
    start + 2 * occurrences.length ≤ size := by
  induction occurrences generalizing start with
  | nil => exact begins
  | cons first rest ih =>
      obtain ⟨behind, tail⟩ := List.pairwise_cons.mp ordered
      obtain ⟨after, wide, inside⟩ := places first List.mem_cons_self
      have later : first.stop + 2 * rest.length ≤ size := by
        refine ih inside (fun found member => ?_) tail
        exact ⟨behind found member, (places found (List.mem_cons_of_mem _ member)).2⟩
      rw [List.length_cons]
      unfold Occurrence.stop at later
      omega

theorem two_mul_length_namesOf_le (sql : String) : 2 * (namesOf sql).length ≤ sql.utf8ByteSize := by
  have placed : 0 + 2 * (scan sql).occurrences.length ≤ sql.utf8ByteSize := by
    refine two_mul_length_le (Nat.zero_le _) (fun found member => ?_) (pairwise_scan sql)
    have cut := cutFrom_of_mem_scan member
    obtain ⟨front, back, whole, size⟩ := Text.isValid_iff.mp cut.isValid.2
    have inside : found.stop ≤ sql.utf8ByteSize := by
      rw [← size, ← String.utf8Len_toList, whole, String.utf8Len_append]
      exact Nat.le_add_right _ _
    exact ⟨Nat.zero_le _, cut.two_le_length, inside⟩
  rw [namesOf, List.length_map]
  omega

theorem length_searchIn (sql : String) :
    (searchIn sql).naming.used.length + (searchIn sql).left.length = mostTries sql := by
  rw [mostTries, length_replacements, ← length_names_counts]
  rfl

theorem mostTries_le (sql : String) : mostTries sql ≤ sql.utf8ByteSize := by
  have distinct : (namesOf sql).dedup.length ≤ (namesOf sql).length :=
    (List.dedup_sublist _).length_le
  have replaced : (searchIn sql).left.length ≤ (namesOf sql).length := List.length_filter_le _ _
  have room := two_mul_length_namesOf_le sql
  rw [mostTries, length_replacements]
  omega

/-- The search ends where the one with a bound ends that is made for a renaming, and has then put
    the names of the renaming in use. However far it has come, it has tried the suffixes of a base
    up to the counter and each of them once, and these are no more than there are different names
    and replaced occurrences together. A counter is never greater than the number of bytes of the
    text. -/
theorem search_ends_within_bound (sql : String) :
    (∃ steps, (searchIn sql).after steps =
        ⟨(searchIn sql).left.foldl Naming.take (searchIn sql).naming, []⟩
      ∧ ((searchIn sql).after steps).naming.used =
        ((rename sql).replacements.map (·.name)).reverse ++ (scan sql).counts.names)
    ∧ (∀ base steps,
      (searchIn sql).triedFor base steps =
          List.range (((searchIn sql).after steps).naming.hint base)
        ∧ ((searchIn sql).triedFor base steps).length ≤ mostTries sql
        ∧ ∀ suffix ∈ (searchIn sql).triedFor base steps, suffix < mostTries sql)
    ∧ mostTries sql ≤ sql.utf8ByteSize := by
  have covered : (searchIn sql).naming.Covered := covered_start _
  refine ⟨?_, fun base steps => ?_, mostTries_le sql⟩
  · obtain ⟨steps, ended⟩ := Search.exists_after_nil covered (searchIn sql).left
    refine ⟨steps, ended, ?_⟩
    rw [ended, left_searchIn, Naming.used_foldl_take, names_replacements]
    rfl
  · have counted : (searchIn sql).triedFor base steps = _ := Search.triedFor_eq_range rfl steps
    have below : ((searchIn sql).after steps).naming.hint base ≤ mostTries sql := by
      have passed := Naming.hint_le_length_used (Search.covered_after covered steps) base
      have grown := Search.length_after (searchIn sql) steps
      rw [length_searchIn] at grown
      omega
    refine ⟨counted, ?_, fun suffix tried => ?_⟩
    · rwa [counted, List.length_range]
    · rw [counted] at tried
      exact Nat.lt_of_lt_of_le (List.mem_range.mp tried) below

/-- Two candidates for `a` stand in the text and are passed over. -/
example : (searchIn ":a :a_0 :a :a_0 :a_2 :a").tries 9 =
    [("a", 0), ("a", 1), ("a_0", 0), ("a", 2), ("a", 3), ("a_0", 1), ("a", 4)] := by
  decide +kernel

end SealedColumns.Placeholder
