import SealedColumns.Placeholder.Renaming
import SealedColumns.Proofs.Placeholder.Tokens

/-!
The names that replace repeated ones. Candidates of one base differ, so the search
for a free one ends within as many steps as names are in use. Each name taken is
new, the names that are not repeated stay, and together they are distinct. The
expansion table lists the names taken for a base in the order of its occurrences.
-/

namespace SealedColumns.Placeholder

theorem candidate_injective {base : String} {first second : Nat}
    (same : candidate base first = candidate base second) : first = second := by
  have letters := congrArg String.toList same
  simp only [candidate, String.toList_append, List.append_cancel_left_eq, Nat.toList_repr]
    at letters
  have value := congrArg (Nat.ofDigitChars 10 · 0) letters
  simpa using value

theorem properName_candidate {base : String} (proper : ProperName base) (suffix : Nat) :
    ProperName (candidate base suffix) := by
  constructor
  · rw [candidate, String.append_assoc, String.toList_append]
    exact Token.head?_name_append proper _
  · intro c member
    simp only [candidate, String.toList_append, List.mem_append, Nat.toList_repr] at member
    rcases member with (letter | underscore) | digit
    · exact proper.2 c letter
    · have same : c = '_' := by simpa using underscore
      subst same
      decide
    · have digit := Nat.isDigit_of_mem_toDigits (by decide) (by decide) digit
      simp [isNameChar, Char.isAlphanum, digit]

section Search
variable (used : List String) (base : String)

theorem taken_below_firstFree (steps suffix k : Nat) (start : suffix ≤ k)
    (below : k < firstFree used base steps suffix) : candidate base k ∈ used := by
  induction steps generalizing suffix with
  | zero => exact absurd below (Nat.not_lt.mpr start)
  | succ steps ih =>
      unfold firstFree at below
      split at below
      · next taken =>
        rcases Nat.eq_or_lt_of_le start with same | after
        · exact same ▸ taken
        · exact ih (suffix + 1) after below
      · exact absurd below (Nat.not_lt.mpr start)

theorem firstFree_of_taken (steps suffix : Nat)
    (taken : candidate base (firstFree used base steps suffix) ∈ used) :
    firstFree used base steps suffix = suffix + steps := by
  induction steps generalizing suffix with
  | zero => rfl
  | succ steps ih =>
      unfold firstFree at taken ⊢
      split
      · next here =>
        rw [if_pos here] at taken
        rw [ih (suffix + 1) taken]
        omega
      · next free =>
        rw [if_neg free] at taken
        exact absurd taken free

/-- Candidates of different suffixes are different names in use. -/
theorem length_le_of_taken {suffixes : List Nat} (distinct : suffixes.Nodup)
    (taken : ∀ suffix ∈ suffixes, candidate base suffix ∈ used) :
    suffixes.length ≤ used.length := by
  have apart : (suffixes.map (candidate base)).Nodup :=
    List.pairwise_map.mpr (distinct.imp fun differ same => differ (candidate_injective same))
  have within : suffixes.map (candidate base) ⊆ used := by
    intro name member
    obtain ⟨suffix, listed, rfl⟩ := List.mem_map.mp member
    exact taken suffix listed
  simpa using apart.length_le_of_subset within

/-- Were the candidate in use, so would be all from `suffix` on, one more than there
    are names in use. -/
theorem free_firstFree (suffix : Nat) :
    candidate base (firstFree used base used.length suffix) ∉ used := by
  intro taken
  have last := firstFree_of_taken used base used.length suffix taken
  have within : ∀ k ∈ List.range' suffix (used.length + 1), candidate base k ∈ used := by
    intro k range
    obtain ⟨start, stop⟩ := List.mem_range'_1.mp range
    rcases Nat.lt_or_ge k (suffix + used.length) with before | after
    · exact taken_below_firstFree used base used.length suffix k start (last ▸ before)
    · have same : k = suffix + used.length := by omega
      rw [same, ← last]
      exact taken
  have crowded := length_le_of_taken used base (List.nodup_range' 1) within
  simp at crowded

end Search

namespace Naming

theorem free_freeSuffix (naming : Naming) (base : String) :
    candidate base (naming.freeSuffix base) ∉ naming.used :=
  free_firstFree naming.used base (naming.hint base)

theorem used_take (naming : Naming) (base : String) :
    (naming.take base).used = candidate base (naming.freeSuffix base) :: naming.used := rfl

/-- The names of all occurrences afterwards: a repeated name gives way to a new one. -/
def chosen (repeated : String → Bool) (naming : Naming) : List String → List String
  | [] => []
  | name :: rest =>
      if repeated name then
        candidate name (naming.freeSuffix name) :: (naming.take name).chosen repeated rest
      else name :: naming.chosen repeated rest

variable {repeated : String → Bool}

@[simp] theorem length_chosen (naming : Naming) (names : List String) :
    (naming.chosen repeated names).length = names.length := by
  induction names generalizing naming with
  | nil => rfl
  | cons name rest ih =>
      unfold chosen
      split <;> simp [ih]

/-- What stands in the place of a name: a candidate not in use, or the name itself. -/
theorem mem_zip_chosen {naming : Naming} {names : List String} {name taken : String}
    (member : (name, taken) ∈ names.zip (naming.chosen repeated names)) :
    (repeated name = true ∧ taken ∉ naming.used ∧ ∃ suffix, taken = candidate name suffix)
      ∨ (repeated name = false ∧ taken = name) := by
  induction names generalizing naming with
  | nil => simp at member
  | cons first rest ih =>
      unfold chosen at member
      split at member
      · next again =>
        rcases List.mem_cons.mp member with same | later
        · obtain ⟨rfl, rfl⟩ := Prod.mk.inj same
          exact Or.inl ⟨again, naming.free_freeSuffix name, _, rfl⟩
        · -- Later searches know more names in use, never fewer.
          rcases ih later with ⟨several, fresh, shape⟩ | kept
          · rw [used_take] at fresh
            exact Or.inl ⟨several, fun used => fresh (List.mem_cons_of_mem _ used), shape⟩
          · exact Or.inr kept
      · next single =>
        rcases List.mem_cons.mp member with same | later
        · obtain ⟨rfl, rfl⟩ := Prod.mk.inj same
          exact Or.inr ⟨by simpa using single, rfl⟩
        · exact ih later

theorem exists_of_mem_chosen {naming : Naming} {names : List String} {taken : String}
    (member : taken ∈ naming.chosen repeated names) :
    ∃ name, (name, taken) ∈ names.zip (naming.chosen repeated names) := by
  have seconds : (names.zip (naming.chosen repeated names)).map (·.2) =
      naming.chosen repeated names := List.map_snd_zip (by simp)
  rw [← seconds] at member
  obtain ⟨pair, inside, rfl⟩ := List.mem_map.mp member
  exact ⟨pair.1, inside⟩

theorem mem_chosen {naming : Naming} {names : List String} {name : String}
    (member : name ∈ naming.chosen repeated names) :
    name ∉ naming.used ∨ (name ∈ names ∧ repeated name = false) := by
  obtain ⟨before, pair⟩ := exists_of_mem_chosen member
  rcases mem_zip_chosen pair with ⟨-, fresh, -⟩ | ⟨single, rfl⟩
  · exact Or.inl fresh
  · exact Or.inr ⟨(List.of_mem_zip pair).1, single⟩

theorem nodup_chosen {naming : Naming} {names : List String}
    (known : ∀ name ∈ names, name ∈ naming.used)
    (single : names.Pairwise fun name other => repeated name = false → name ≠ other) :
    (naming.chosen repeated names).Nodup := by
  induction names generalizing naming with
  | nil => simp [chosen]
  | cons name rest ih =>
      obtain ⟨alone, tail⟩ := List.pairwise_cons.mp single
      have later : ∀ other ∈ rest, other ∈ naming.used :=
        fun other member => known other (List.mem_cons_of_mem _ member)
      unfold chosen
      split
      · refine List.nodup_cons.mpr ⟨?_, ih (fun other member => ?_) tail⟩
        · intro again
          rcases mem_chosen again with fresh | ⟨old, -⟩
          · exact fresh (by simp [used_take])
          · exact naming.free_freeSuffix name (later _ old)
        · rw [used_take]
          exact List.mem_cons_of_mem _ (later other member)
      · next kept =>
        apply List.nodup_cons.mpr ⟨_, ih later tail⟩
        intro again
        rcases mem_chosen again with fresh | ⟨old, single⟩
        · exact fresh (known name (by simp))
        · exact alone name old single rfl

theorem properName_of_mem_chosen {naming : Naming} {names : List String}
    (proper : ∀ name ∈ names, ProperName name) {name : String}
    (member : name ∈ naming.chosen repeated names) : ProperName name := by
  obtain ⟨before, pair⟩ := exists_of_mem_chosen member
  have known := proper before (List.of_mem_zip pair).1
  rcases mem_zip_chosen pair with ⟨-, -, suffix, rfl⟩ | ⟨-, rfl⟩
  · exact properName_candidate known suffix
  · exact known

/-- The edits are made where a repeated name occurs, and write the name chosen there. -/
theorem edits_filter (naming : Naming) (occurrences : List Occurrence) :
    naming.edits (occurrences.filter fun found => repeated found.name) =
      ((occurrences.zip (naming.chosen repeated (occurrences.map (·.name)))).filter
        fun pair => repeated pair.1.name).map
          fun pair => ⟨pair.1.position, pair.1.length, pair.1.name, pair.2⟩ := by
  induction occurrences generalizing naming with
  | nil => rfl
  | cons found rest ih =>
      by_cases again : repeated found.name = true
      · simp [edits, chosen, again, ih]
      · simp [chosen, again, ih]

end Naming

/-! The expansion table. -/

theorem generated_insert (table : Expansions) (name base : String) (names : List String) :
    Expansions.generated (table.insert name names) base =
      if base = name then names else table.generated base := by
  unfold Expansions.generated
  rw [NameMap.get?_insert]
  split <;> rfl

theorem generated_foldl (edits : List Edit) (table : Expansions) (base : String) :
    Expansions.generated (edits.foldl (fun table edit =>
        table.insert edit.base (table.generated edit.base ++ [edit.name])) table) base =
      table.generated base ++ (edits.filter (·.base == base)).map (·.name) := by
  induction edits generalizing table with
  | nil => simp
  | cons edit rest ih =>
      rw [List.foldl_cons, ih, generated_insert]
      by_cases same : edit.base = base
      · simp [same]
      · simp [same, Ne.symm same]

theorem generated_tableOf (edits : List Edit) (base : String) :
    (tableOf edits).generated base = (edits.filter (·.base == base)).map (·.name) := by
  rw [tableOf, generated_foldl]
  rfl

theorem contains_foldl (edits : List Edit) (table : Expansions) (base : String) :
    (edits.foldl (fun table edit =>
        table.insert edit.base (table.generated edit.base ++ [edit.name])) table).contains base
      = (table.contains base || edits.any (·.base == base)) := by
  induction edits generalizing table with
  | nil => simp
  | cons edit rest ih =>
      rw [List.foldl_cons, ih]
      by_cases same : edit.base = base
      · simp [NameMap.contains, same]
      · have differs : (edit.base == base) = false := by simpa using same
        simp [NameMap.contains, differs, Ne.symm same]

theorem contains_tableOf (edits : List Edit) (base : String) :
    (tableOf edits).contains base = edits.any (·.base == base) := by
  rw [tableOf, contains_foldl]
  rfl

/-- In a filtered list an item stands behind the kept ones before it. -/
theorem getElem?_filter {α : Type} (keep : α → Bool) (items : List α) (i : Nat)
    {item : α} (here : items[i]? = some item) (kept : keep item = true) :
    (items.filter keep)[(items.take i).countP keep]? = some item := by
  induction items generalizing i with
  | nil => simp at here
  | cons first rest ih =>
      cases i with
      | zero =>
          have same : first = item := by simpa using here
          simp [same, kept]
      | succ i =>
          have found := ih i (by simpa using here)
          by_cases first' : keep first = true <;> simp [first', found]

theorem countP_fst_take_zip (name : String) (i : Nat) {first second : List String}
    (same : first.length = second.length) :
    ((first.zip second).take i).countP (fun pair => pair.1 == name) =
      (first.take i).count name := by
  have firsts : (first.zip second).map (·.1) = first := List.map_fst_zip (Nat.le_of_eq same)
  conv_rhs => rw [← firsts, ← List.map_take]
  rw [List.count, List.countP_map]
  rfl

/-! The names of one statement. -/

def namesOf (sql : String) : List String := (scan sql).occurrences.map (·.name)

def repeatedIn (sql name : String) : Bool := 2 ≤ (namesOf sql).count name

theorem mem_namesOf_of_repeatedIn {sql name : String} (again : repeatedIn sql name = true) :
    name ∈ namesOf sql := by
  apply List.count_pos_iff.mp
  exact Nat.lt_of_lt_of_le Nat.zero_lt_two (of_decide_eq_true again)

/-- The names of all occurrences after renaming. -/
def renamedNames (sql : String) : List String :=
  Naming.chosen (repeatedIn sql) ⟨(scan sql).counts.names, .empty⟩ (namesOf sql)

theorem length_renamedNames (sql : String) :
    (renamedNames sql).length = (namesOf sql).length :=
  Naming.length_chosen _ _

theorem nodup_renamedNames (sql : String) : (renamedNames sql).Nodup := by
  refine Naming.nodup_chosen (fun name member => (mem_names_counts sql name).mpr member) ?_
  apply List.pairwise_iff_forall_sublist.mpr
  intro name other pair single same
  subst same
  have several := pair.count_le name
  simp only [repeatedIn, decide_eq_false_iff_not] at single
  simp at several
  omega

theorem properName_of_mem_renamedNames {sql name : String} (member : name ∈ renamedNames sql) :
    ProperName name :=
  Naming.properName_of_mem_chosen (fun _ known => properName_of_mem_scan known) member

theorem editsOf_scan (sql : String) :
    editsOf (scan sql) =
      (((scan sql).occurrences.zip (renamedNames sql)).filter
        fun pair => repeatedIn sql pair.1.name).map
          fun pair => ⟨pair.1.position, pair.1.length, pair.1.name, pair.2⟩ := by
  have same : (fun found : Occurrence => decide (2 ≤ countOf (scan sql).counts found.name)) =
      fun found => repeatedIn sql found.name := by
    funext found
    rw [countOf_scan]
    rfl
  rw [editsOf, same, Naming.edits_filter]
  rfl

theorem rename_eq (sql : String) :
    rename sql =
      { sql := String.ofList (splice 0 sql.toList (editsOf (scan sql)))
        kept := !(scan sql).hasRepeats
        expansions := tableOf (editsOf (scan sql))
        replacements := placesFrom 0 0 (editsOf (scan sql)) } := by
  rw [rename, renameWith]
  split
  · next several => simp [several]
  · next single =>
    have none : editsOf (scan sql) = [] := by
      rw [editsOf_scan, List.map_eq_nil_iff, List.filter_eq_nil_iff]
      intro pair _ again
      exact single ((hasRepeats_iff sql).mpr ⟨pair.1.name, of_decide_eq_true again⟩)
    simp [none, single, splice, placesFrom, tableOf]

theorem expansions_rename (sql : String) :
    (rename sql).expansions = tableOf (editsOf (scan sql)) := by
  rw [rename_eq]

/-- The names generated for a repeated name are those chosen where it occurs. -/
theorem generated_rename (sql base : String) :
    (rename sql).expansions.generated base =
      if repeatedIn sql base then
        (((namesOf sql).zip (renamedNames sql)).filter (·.1 == base)).map (·.2)
      else [] := by
  rw [expansions_rename, generated_tableOf, editsOf_scan, namesOf, List.zip_map_left]
  simp only [List.filter_map, List.map_map, List.filter_filter]
  split
  · next several =>
    congr 1
    apply List.filter_congr
    intro pair _
    by_cases same : pair.1.name = base
    · simp [same, several]
    · simp [same]
  · next single =>
    rw [List.map_eq_nil_iff, List.filter_eq_nil_iff]
    intro pair _ both
    simp only [Function.comp_apply, Bool.and_eq_true, beq_iff_eq] at both
    exact single (both.1 ▸ both.2)

theorem length_generated (sql base : String) :
    ((rename sql).expansions.generated base).length =
      if 2 ≤ (namesOf sql).count base then (namesOf sql).count base else 0 := by
  rw [generated_rename]
  by_cases again : repeatedIn sql base = true
  · have counted := countP_fst_take_zip base (namesOf sql).length (length_renamedNames sql).symm
    have short : ((namesOf sql).zip (renamedNames sql)).length ≤ (namesOf sql).length := by
      rw [List.length_zip]
      exact Nat.min_le_left _ _
    rw [List.take_of_length_le short, List.take_length] at counted
    rw [if_pos again, if_pos (of_decide_eq_true again), List.length_map,
      ← List.countP_eq_length_filter, counted]
  · rw [if_neg again, if_neg fun several => again (decide_eq_true several)]
    rfl

/-- The names generated for one base are new to the statement. -/
theorem disjoint_generated (sql base : String) :
    List.Disjoint ((rename sql).expansions.generated base) (namesOf sql) := by
  intro name generated old
  rw [generated_rename] at generated
  split at generated
  · next several =>
    obtain ⟨⟨first, second⟩, chosen, rfl⟩ := List.mem_map.mp generated
    obtain ⟨pair, same⟩ := List.mem_filter.mp chosen
    have same : first = base := by simpa using same
    subst same
    rcases Naming.mem_zip_chosen pair with ⟨-, fresh, -⟩ | ⟨single, -⟩
    · exact fresh ((mem_names_counts sql second).mpr old)
    · simp [single] at several
  · simp at generated

/-- The name of an occurrence afterwards, through the expansion table. -/
theorem getElem?_renamedNames (sql : String) (i : Nat) :
    (renamedNames sql)[i]? = (namesOf sql)[i]?.bind fun name =>
      if 2 ≤ (namesOf sql).count name then
        ((rename sql).expansions.generated name)[((namesOf sql).take i).count name]?
      else some name := by
  have lengths := length_renamedNames sql
  cases here : (namesOf sql)[i]? with
  | none =>
      have outside := List.getElem?_eq_none_iff.mp here
      simpa [lengths] using outside
  | some name =>
      have inside : i < (renamedNames sql).length := by
        rw [lengths]
        exact (List.getElem?_eq_some_iff.mp here).1
      obtain ⟨taken, there⟩ : ∃ taken, (renamedNames sql)[i]? = some taken :=
        ⟨_, List.getElem?_eq_getElem inside⟩
      -- The position in the table counts the occurrences of this base before `i`.
      have pair : ((namesOf sql).zip (renamedNames sql))[i]? = some (name, taken) :=
        List.getElem?_zip_eq_some.mpr ⟨here, there⟩
      rw [there, Option.bind_some]
      rcases Naming.mem_zip_chosen (List.mem_of_getElem? pair) with ⟨again, -, -⟩ | ⟨single, same⟩
      · have found := getElem?_filter (fun pair => pair.1 == name) _ i pair (by simp)
        rw [countP_fst_take_zip name i lengths.symm] at found
        rw [if_pos (of_decide_eq_true again), generated_rename, if_pos again,
          List.getElem?_map, found]
        rfl
      · rw [if_neg (of_decide_eq_false single), same]

end SealedColumns.Placeholder
