import SealedColumns.Placeholder.Expansion
import SealedColumns.Proofs.Keys
import SealedColumns.Proofs.Placeholder.RenamedText

/-!
What expansion does to the parameters of a renamed statement. Only keys of repeated
names and of the names generated for them are touched, and the entries of the table
do not touch each other's keys, so the order in which they are worked off does not
matter. The value found for a placeholder is the one that was bound for it before
renaming, unless the caller bound its new name.
-/

namespace SealedColumns

namespace Placeholder

open Parameters (KeyOf eq_of_keyOf bound?_congr)

theorem hasSigil_of_properName {name : String} (proper : ProperName name) :
    hasSigil name = false := by
  have starts := proper.1
  rw [hasSigil]
  cases first : name.toList.head? with
  | none => rfl
  | some c =>
      rw [first, Option.any_some] at starts
      have colon := ne_of_isNameChar (isNameChar_of_isNameStart starts)
        (show isNameChar ':' = false by decide)
      simpa [sigil] using colon

theorem plain_of_mem_namesOf {sql name : String} (member : name ∈ namesOf sql) :
    hasSigil name = false :=
  hasSigil_of_properName (properName_of_mem_scan member)

theorem keyOf_keyLike (withSigil : Bool) (name : String) :
    KeyOf name (keyLike withSigil name) := by
  cases withSigil with
  | false => exact Or.inl rfl
  | true => exact Or.inr rfl

section Step
variable (withSigil : Bool) (value : Value) (params : Parameters)

theorem get?_bindGenerated (name key : String) :
    (bindGenerated withSigil value params name).get? key =
      if params.binds name = false ∧ key = keyLike withSigil name then some value
      else params.get? key := by
  unfold bindGenerated
  cases bound : params.binds name <;> simp

theorem binds_bindGenerated {name other : String} (plain : hasSigil name = false)
    (otherPlain : hasSigil other = false) :
    (bindGenerated withSigil value params name).binds other =
      (params.binds other || name == other) := by
  by_cases same : name = other
  · subst same
    cases bound : params.binds name with
    | true => simp [bindGenerated, bound]
    | false =>
        have here := get?_bindGenerated withSigil value params name (keyLike withSigil name)
        rw [if_pos ⟨bound, rfl⟩] at here
        rw [Parameters.binds_of_get? (keyOf_keyLike withSigil name) here]
        simp
  · have apart (key : String) (keyed : KeyOf other key) : key ≠ keyLike withSigil name :=
      fun equal => same (eq_of_keyOf plain otherPlain (equal ▸ keyOf_keyLike withSigil name) keyed)
    have unchanged : (bindGenerated withSigil value params name).bound? other =
        params.bound? other :=
      bound?_congr fun key keyed => by
        rw [get?_bindGenerated, if_neg fun both => apart key keyed both.2]
    have differ : (name == other) = false := by simpa using same
    rw [Parameters.binds, Parameters.binds, unchanged, differ, Bool.or_false]

theorem get?_foldl_bindGenerated {names : List String}
    (plain : ∀ name ∈ names, hasSigil name = false) (key : String) :
    (names.foldl (bindGenerated withSigil value) params).get? key =
      if ∃ name ∈ names, params.binds name = false ∧ key = keyLike withSigil name then some value
      else params.get? key := by
  induction names generalizing params with
  | nil => simp
  | cons first rest ih =>
      have firstPlain := plain first (by simp)
      have restPlain : ∀ name ∈ rest, hasSigil name = false :=
        fun name member => plain name (List.mem_cons_of_mem _ member)
      rw [List.foldl_cons, ih _ restPlain, get?_bindGenerated]
      by_cases here : params.binds first = false ∧ key = keyLike withSigil first
      · rw [if_pos here, ite_self, if_pos ⟨first, by simp, here⟩]
      · rw [if_neg here]
        -- What the first step bound has the key that `here` rules out.
        apply if_congr _ rfl rfl
        constructor
        · rintro ⟨name, member, free, keyed⟩
          rw [binds_bindGenerated _ _ _ firstPlain (restPlain name member),
            Bool.or_eq_false_iff] at free
          exact ⟨name, List.mem_cons_of_mem _ member, free.1, keyed⟩
        · rintro ⟨name, member, free, keyed⟩
          rcases List.mem_cons.mp member with same | later
          · exact absurd ⟨same ▸ free, same ▸ keyed⟩ here
          · refine ⟨name, later, ?_, keyed⟩
            have differ : (first == name) = false := by
              by_contra same
              have same : first = name := by simpa using same
              subst same
              exact here ⟨free, keyed⟩
            rw [binds_bindGenerated _ _ _ firstPlain (restPlain name later), free, differ]
            rfl

end Step

theorem get?_expandName (params : Parameters) (base : String) {generated : List String}
    (plain : ∀ name ∈ generated, hasSigil name = false) (key : String) :
    (expandName params base generated).get? key =
      if KeyOf base key then none
      else match params.bound? base with
        | none => params.get? key
        | some (found, value) =>
            if ∃ name ∈ generated,
                params.binds name = false ∧ key = keyLike (hasSigil found) name then some value
            else params.get? key := by
  unfold expandName
  cases bound : params.bound? base with
  | none =>
      obtain ⟨bare, marked⟩ := (Parameters.bound?_eq_none_iff _ _).mp bound
      dsimp only
      split
      · next keyed => rcases keyed with rfl | rfl <;> assumption
      · rfl
  | some found =>
      dsimp only
      rw [Parameters.get?_unbind, get?_foldl_bindGenerated _ _ _ plain]
      rfl

/-- A table whose entries have nothing to do with each other. -/
structure Expansions.Separate (table : Expansions) : Prop where
  plainBase : ∀ base ∈ table.names, hasSigil base = false
  plainName : ∀ base, ∀ name ∈ table.generated base, hasSigil name = false
  new : ∀ base, ∀ name ∈ table.generated base, name ∉ table.names
  apart : ∀ base other name, name ∈ table.generated base → name ∈ table.generated other →
    base = other

section Entries
variable {table : Expansions}

theorem generated_of_mem {entry : String × List String} (member : entry ∈ table.entries) :
    table.generated entry.1 = entry.2 := by
  rw [Expansions.generated, (NameMap.get?_eq_some_iff _ _ _).mpr member]
  rfl

theorem mem_names_of_mem {entry : String × List String} (member : entry ∈ table.entries) :
    entry.1 ∈ table.names := List.mem_map_of_mem member

theorem exists_of_mem_generated {base name : String} (generated : name ∈ table.generated base) :
    (base, table.generated base) ∈ table.entries := by
  unfold Expansions.generated at generated ⊢
  cases found : table.get? base with
  | none => simp [found] at generated
  | some names => exact (NameMap.get?_eq_some_iff _ _ _).mp found

theorem ne_of_mem_append {before after : List (String × List String)}
    {entry : String × List String} (split : table.entries = before ++ entry :: after) :
    ∀ other ∈ before ++ after, entry.1 ≠ other.1 := by
  have distinct := table.nodup_names
  rw [NameMap.names, split, List.map_append, List.map_cons] at distinct
  have distinct := (List.perm_middle.nodup_iff.mp distinct)
  rw [← List.map_append] at distinct
  intro other member same
  exact (List.nodup_cons.mp distinct).1 (List.mem_map.mpr ⟨other, member, same.symm⟩)

def expandEntries (params : Parameters) (entries : List (String × List String)) : Parameters :=
  entries.foldl (fun params entry => expandName params entry.1 entry.2) params

/-- An entry leaves alone the keys of all names but its own. -/
theorem get?_expandEntries_apart {entries : List (String × List String)} {params : Parameters}
    {key : String}
    (plain : ∀ entry ∈ entries, ∀ name ∈ entry.2, hasSigil name = false)
    (apart : ∀ entry ∈ entries, ¬ KeyOf entry.1 key ∧ ∀ name ∈ entry.2, ¬ KeyOf name key) :
    (expandEntries params entries).get? key = params.get? key := by
  induction entries generalizing params with
  | nil => rfl
  | cons entry rest ih =>
      obtain ⟨base, generated⟩ := apart entry (by simp)
      have later := @ih (expandName params entry.1 entry.2)
        (fun other member => plain other (List.mem_cons_of_mem _ member))
        (fun other member => apart other (List.mem_cons_of_mem _ member))
      rw [expandEntries, List.foldl_cons, ← expandEntries, later,
        get?_expandName _ _ (plain entry (by simp)), if_neg base]
      split
      · rfl
      · apply if_neg
        rintro ⟨name, member, -, rfl⟩
        exact generated name member (keyOf_keyLike _ name)

theorem expandEntries_append (params : Parameters) (before : List (String × List String))
    (entry : String × List String) (after : List (String × List String)) :
    expandEntries params (before ++ entry :: after) =
      expandEntries (expandName (expandEntries params before) entry.1 entry.2) after := by
  rw [expandEntries, List.foldl_append, List.foldl_cons]
  rfl

/-- No other entry has a key of a name of this one. -/
theorem Expansions.Separate.apart_of_ne (separate : table.Separate)
    {entry other : String × List String} (here : entry ∈ table.entries)
    (there : other ∈ table.entries) (differ : entry.1 ≠ other.1) {own key : String}
    (owned : own = entry.1 ∨ own ∈ entry.2) (keyed : KeyOf own key) :
    ¬ KeyOf other.1 key ∧ ∀ name ∈ other.2, ¬ KeyOf name key := by
  have mine := generated_of_mem here
  have theirs := generated_of_mem there
  have ownPlain : hasSigil own = false := by
    rcases owned with rfl | generated
    · exact separate.plainBase _ (mem_names_of_mem here)
    · exact separate.plainName entry.1 own (mine ▸ generated)
  constructor
  · intro again
    have same := eq_of_keyOf ownPlain (separate.plainBase _ (mem_names_of_mem there)) keyed again
    rcases owned with base | generated
    · exact differ (base ▸ same)
    · exact separate.new entry.1 own (mine ▸ generated) (same ▸ mem_names_of_mem there)
  · intro name generated again
    have generated : name ∈ table.generated other.1 := theirs ▸ generated
    have same := eq_of_keyOf ownPlain (separate.plainName _ name generated) keyed again
    subst same
    rcases owned with base | mineToo
    · exact separate.new other.1 own generated (base ▸ mem_names_of_mem here)
    · exact differ (separate.apart entry.1 other.1 own (mine ▸ mineToo) generated)

theorem Expansions.Separate.apart_of_split (separate : table.Separate)
    {before after : List (String × List String)} {entry : String × List String}
    (split : table.entries = before ++ entry :: after) {own key : String}
    (owned : own = entry.1 ∨ own ∈ entry.2) (keyed : KeyOf own key) :
    ∀ other ∈ before ++ after,
      ¬ KeyOf other.1 key ∧ ∀ name ∈ other.2, ¬ KeyOf name key := by
  intro other member
  have here : entry ∈ table.entries := by simp [split]
  have there : other ∈ table.entries := by
    rw [split]
    exact List.perm_middle.mem_iff.mpr (List.mem_cons_of_mem entry member)
  exact separate.apart_of_ne here there (ne_of_mem_append split other member) owned keyed

theorem Expansions.Separate.plain_of_mem (separate : table.Separate) :
    ∀ entry ∈ table.entries, ∀ name ∈ entry.2, hasSigil name = false :=
  fun entry member name inside =>
    separate.plainName entry.1 name (generated_of_mem member ▸ inside)

theorem get?_expand_other (separate : table.Separate) (params : Parameters) {name key : String}
    (plain : hasSigil name = false) (base : name ∉ table.names)
    (generated : ∀ base, name ∉ table.generated base) (keyed : KeyOf name key) :
    (table.expand params).get? key = params.get? key := by
  refine get?_expandEntries_apart separate.plain_of_mem fun entry member => ⟨?_, ?_⟩
  · intro again
    have known := mem_names_of_mem member
    exact base (eq_of_keyOf plain (separate.plainBase _ known) keyed again ▸ known)
  · intro other inside again
    have known : other ∈ table.generated entry.1 := generated_of_mem member ▸ inside
    have same := eq_of_keyOf plain (separate.plainName entry.1 other known) keyed again
    exact generated entry.1 (same ▸ known)

/-- The repeated names are unbound. -/
theorem get?_expand_base (separate : table.Separate) (params : Parameters) {base key : String}
    (member : base ∈ table.names) (keyed : KeyOf base key) :
    (table.expand params).get? key = none := by
  obtain ⟨entry, inside, rfl⟩ := List.mem_map.mp member
  obtain ⟨before, after, split⟩ := List.append_of_mem inside
  have plain := separate.plain_of_mem
  have apart := separate.apart_of_split split (Or.inl rfl) keyed
  rw [Expansions.expand, ← expandEntries, split, expandEntries_append,
    get?_expandEntries_apart (fun other member => plain other (by simp [split, member]))
      (fun other member => apart other (by simp [member])),
    get?_expandName _ _ (plain entry inside), if_pos keyed]

/-- A generated name that was not bound is bound to the value of its base, under the
    key of the form that the base had. -/
theorem get?_expand_generated (separate : table.Separate) (params : Parameters)
    {base name key : String} (generated : name ∈ table.generated base) (keyed : KeyOf name key) :
    (table.expand params).get? key =
      match params.bound? base with
      | none => params.get? key
      | some (found, value) =>
          if params.binds name = false ∧ key = keyLike (hasSigil found) name then some value
          else params.get? key := by
  have inside := exists_of_mem_generated generated
  obtain ⟨before, after, split⟩ := List.append_of_mem inside
  have plain := separate.plain_of_mem
  have apart := separate.apart_of_split split (Or.inr generated) keyed
  have untouched {own other : String} (owned : own = base ∨ own ∈ table.generated base)
      (keyed : KeyOf own other) :
      (expandEntries params before).get? other = params.get? other :=
    get?_expandEntries_apart (fun entry member => plain entry (by simp [split, member]))
      (fun entry member => separate.apart_of_split split owned keyed entry (by simp [member]))
  -- Up to its entry, nothing has happened to the keys of the base and its names.
  have bound : (expandEntries params before).bound? base = params.bound? base :=
    bound?_congr fun other keyed => untouched (Or.inl rfl) keyed
  have binds : ∀ own ∈ table.generated base,
      (expandEntries params before).binds own = params.binds own := by
    intro own member
    rw [Parameters.binds, Parameters.binds,
      bound?_congr fun other keyed => untouched (Or.inr member) keyed]
  have notBase : ¬ KeyOf base key := by
    intro again
    have same := eq_of_keyOf (separate.plainName base name generated)
      (separate.plainBase base (mem_names_of_mem inside)) keyed again
    exact separate.new base name generated (same ▸ mem_names_of_mem inside)
  rw [Expansions.expand, ← expandEntries, split, expandEntries_append,
    get?_expandEntries_apart (fun other member => plain other (by simp [split, member]))
      (fun other member => apart other (by simp [member])),
    get?_expandName _ _ (plain _ inside), if_neg notBase]
  simp only [bound, untouched (Or.inr generated) keyed]
  split
  · rfl
  · next found value _ =>
    -- Of the names of the entry only `name` has a key of this form.
    apply if_congr _ rfl rfl
    constructor
    · rintro ⟨own, member, free, same⟩
      have same' := eq_of_keyOf (separate.plainName base own member)
        (separate.plainName base name generated) (same ▸ keyOf_keyLike _ own) keyed
      subst same'
      exact ⟨binds own member ▸ free, same⟩
    · rintro ⟨free, same⟩
      exact ⟨name, generated, (binds name generated).trans free, same⟩

/-- Expansion makes no values of its own. -/
theorem exists_get?_of_expandEntries {entries : List (String × List String)}
    (plain : ∀ entry ∈ entries, ∀ name ∈ entry.2, hasSigil name = false)
    {params : Parameters} {key : String} {value : Value}
    (found : (expandEntries params entries).get? key = some value) :
    ∃ source, params.get? source = some value := by
  induction entries generalizing params with
  | nil => exact ⟨key, found⟩
  | cons entry rest ih =>
      have restPlain : ∀ other ∈ rest, ∀ name ∈ other.2, hasSigil name = false :=
        fun other member => plain other (List.mem_cons_of_mem _ member)
      obtain ⟨source, here⟩ := ih restPlain found
      rw [get?_expandName _ _ (plain entry (by simp))] at here
      split at here
      · contradiction
      · split at here
        · exact ⟨source, here⟩
        · next other bound =>
          split at here
          · exact ⟨_, (Parameters.keyOf_of_bound? bound).2.trans here⟩
          · exact ⟨source, here⟩

theorem bound?_expand_other (separate : table.Separate) (params : Parameters) {name : String}
    (plain : hasSigil name = false) (base : name ∉ table.names)
    (generated : ∀ base, name ∉ table.generated base) :
    (table.expand params).bound? name = params.bound? name :=
  bound?_congr fun _ keyed => get?_expand_other separate params plain base generated keyed

theorem bound?_expand_generated (separate : table.Separate) (params : Parameters)
    {base name : String} (generated : name ∈ table.generated base) :
    (table.expand params).bound? name =
      if params.binds name then params.bound? name
      else (params.bound? base).map fun found =>
        (keyLike (hasSigil found.1) name, found.2) := by
  have step {key : String} := @get?_expand_generated table separate params base name key generated
  cases free : params.binds name with
  | true =>
      apply bound?_congr
      intro key keyed
      rw [step keyed]
      split
      · rfl
      · rw [if_neg (by simp [free])]
  | false =>
      obtain ⟨bare, marked⟩ := (Parameters.bound?_eq_none_iff _ _).mp
        ((Parameters.binds_eq_false_iff _ _).mp free)
      have bareKey := step (Or.inl rfl)
      have markedKey := step (Or.inr rfl)
      cases bound : params.bound? base with
      | none =>
          rw [bound] at bareKey markedKey
          exact (Parameters.bound?_eq_none_iff _ _).mpr
            ⟨bareKey.trans bare, markedKey.trans marked⟩
      | some found =>
          rw [bound] at bareKey markedKey
          have differ := (Parameters.sigilKey_ne name).symm
          cases form : hasSigil found.1 <;>
            simp [Parameters.bound?, bareKey, markedKey, free, form, keyLike, bare, differ]

end Entries

/-! The table of a renaming. -/

theorem mem_generated_rename {sql base name : String} :
    name ∈ (rename sql).expansions.generated base ↔
      repeatedIn sql base = true ∧ (base, name) ∈ (namesOf sql).zip (renamedNames sql) := by
  rw [generated_rename]
  split
  · next again =>
    simp [again]
  · next single => simp [single]

theorem mem_names_expansions (sql base : String) :
    base ∈ (rename sql).expansions.names ↔ repeatedIn sql base = true := by
  rw [← NameMap.contains_iff, expansions_rename, contains_tableOf, editsOf_scan, List.any_map,
    List.any_filter]
  constructor
  · intro found
    obtain ⟨pair, -, both⟩ := List.any_eq_true.mp found
    simp only [Function.comp_apply, Bool.and_eq_true, beq_iff_eq] at both
    exact both.2 ▸ both.1
  · intro again
    obtain ⟨found, inside, rfl⟩ := List.mem_map.mp (mem_namesOf_of_repeatedIn again)
    have same : ((scan sql).occurrences.zip (renamedNames sql)).map (·.1) =
        (scan sql).occurrences := List.map_fst_zip (by simp [length_renamedNames, namesOf])
    rw [← same] at inside
    obtain ⟨pair, place, rfl⟩ := List.mem_map.mp inside
    exact List.any_eq_true.mpr ⟨pair, place, by simp [again]⟩

theorem eq_of_mem_zip_nodup {α β : Type} {firsts : List α} {seconds : List β}
    (distinct : seconds.Nodup) {first other : α} {second : β}
    (here : (first, second) ∈ firsts.zip seconds) (there : (other, second) ∈ firsts.zip seconds) :
    first = other := by
  obtain ⟨i, found⟩ := List.mem_iff_getElem?.mp here
  obtain ⟨j, again⟩ := List.mem_iff_getElem?.mp there
  obtain ⟨firstHere, secondHere⟩ := List.getElem?_zip_eq_some.mp found
  obtain ⟨firstThere, secondThere⟩ := List.getElem?_zip_eq_some.mp again
  have inside := (List.getElem?_eq_some_iff.mp secondHere).1
  have same : i = j :=
    (List.getElem?_inj inside distinct).mp (secondHere.trans secondThere.symm)
  subst same
  exact Option.some.inj (firstHere.symm.trans firstThere)

theorem separate_rename (sql : String) : (rename sql).expansions.Separate where
  plainBase := by
    intro base member
    have again := (mem_names_expansions sql base).mp member
    exact plain_of_mem_namesOf (mem_namesOf_of_repeatedIn again)
  plainName := by
    intro base name generated
    have pair := (mem_generated_rename.mp generated).2
    exact hasSigil_of_properName (properName_of_mem_renamedNames (List.of_mem_zip pair).2)
  new := by
    intro base name generated member
    have again := (mem_names_expansions sql name).mp member
    exact disjoint_generated sql base generated (mem_namesOf_of_repeatedIn again)
  apart := by
    intro base other name here there
    exact eq_of_mem_zip_nodup (nodup_renamedNames sql) (mem_generated_rename.mp here).2
      (mem_generated_rename.mp there).2

/-- The occurrences of a statement's placeholders, each by its name before and after
    renaming. -/
def sites (sql : String) : List (String × String) :=
  (namesOf sql).zip (namesOf (rename sql).sql)

section Sites
variable {sql old new : String}

theorem mem_sites : (old, new) ∈ sites sql ↔ (old, new) ∈ (namesOf sql).zip (renamedNames sql) := by
  rw [sites, namesOf_rename]

theorem properName_of_mem_sites (site : (old, new) ∈ sites sql) :
    ProperName old ∧ ProperName new := by
  have pair := mem_sites.mp site
  constructor
  · exact properName_of_mem_scan (List.of_mem_zip pair).1
  · exact properName_of_mem_renamedNames (List.of_mem_zip pair).2

theorem ne_of_mem_generated {base : String} (site : (old, new) ∈ sites sql)
    (generated : new ∈ (rename sql).expansions.generated base) : new ≠ old := by
  rintro rfl
  exact disjoint_generated sql base generated (List.of_mem_zip (mem_sites.mp site)).1

/-- An occurrence keeps its name, and expansion what is bound for it, or its new name
    is one of those generated for the old. -/
theorem renamed_cases (site : (old, new) ∈ sites sql) :
    new ∈ (rename sql).expansions.generated old
      ∨ (new = old ∧ old ∉ (rename sql).expansions.names
          ∧ ∀ base, old ∉ (rename sql).expansions.generated base) := by
  have pair := mem_sites.mp site
  rcases Naming.mem_zip_chosen pair with ⟨again, -, -⟩ | ⟨single, same⟩
  · exact Or.inl (mem_generated_rename.mpr ⟨again, pair⟩)
  · right
    refine ⟨same, ?_, ?_⟩
    · rw [mem_names_expansions, single]
      exact Bool.false_ne_true
    · intro base generated
      exact disjoint_generated sql base generated (List.of_mem_zip pair).1

theorem mem_sites_of_generated (generated : new ∈ (rename sql).expansions.generated old) :
    (old, new) ∈ sites sql :=
  mem_sites.mpr (mem_generated_rename.mp generated).2

theorem exists_mem_sites (member : old ∈ namesOf sql) : ∃ new, (old, new) ∈ sites sql := by
  obtain ⟨place, found⟩ := List.mem_iff_getElem?.mp member
  have inside : place < (namesOf (rename sql).sql).length := by
    rw [namesOf_rename, length_renamedNames]
    exact (List.getElem?_eq_some_iff.mp found).1
  exact ⟨_, List.mem_iff_getElem?.mpr ⟨place,
    List.getElem?_zip_eq_some.mpr ⟨found, List.getElem?_eq_getElem inside⟩⟩⟩

/-- The key and value found for an occurrence after expansion. -/
theorem bound?_expand_rename (params : Parameters) (site : (old, new) ∈ sites sql) :
    ((rename sql).expansions.expand params).bound? new =
      if new = old ∨ params.binds new then params.bound? new
      else (params.bound? old).map fun found =>
        (keyLike (hasSigil found.1) new, found.2) := by
  have separate := separate_rename sql
  rcases renamed_cases site with generated | ⟨rfl, base, generated⟩
  · have differ := ne_of_mem_generated site generated
    rw [bound?_expand_generated separate params generated]
    simp [differ]
  · have plain := hasSigil_of_properName (properName_of_mem_sites site).1
    rw [bound?_expand_other separate params plain base generated, if_pos (Or.inl rfl)]

/-- An occurrence keeps its value, unless the caller bound its new name. -/
theorem value?_expand_rename (params : Parameters) (site : (old, new) ∈ sites sql)
    (free : new = old ∨ params.binds new = false) :
    ((rename sql).expansions.expand params).value? new = params.value? old := by
  rw [Parameters.value?, Parameters.value?, bound?_expand_rename params site]
  by_cases kept : new = old
  · rw [if_pos (Or.inl kept), kept]
  · have unbound : params.binds new = false := free.resolve_left kept
    rw [if_neg (by simp [kept, unbound]), Option.map_map]
    rfl

/-- The caller bound no name generated for the base. -/
def NotOverridden (sql base : String) (params : Parameters) : Prop :=
  ∀ name ∈ (rename sql).expansions.generated base, params.binds name = false

theorem notOverridden_of_within {params : Parameters} (known : params.Within (namesOf sql))
    (base : String) : NotOverridden sql base params := by
  intro name generated
  apply known.binds_eq_false _ _ (disjoint_generated sql base generated)
  · intro other member
    exact plain_of_mem_namesOf member
  · exact (separate_rename sql).plainName base name generated

theorem value?_expand_of_notOverridden {params : Parameters} (free : NotOverridden sql old params)
    (site : (old, new) ∈ sites sql) :
    ((rename sql).expansions.expand params).value? new = params.value? old := by
  apply value?_expand_rename params site
  rcases renamed_cases site with generated | ⟨same, -, -⟩
  · exact Or.inr (free new generated)
  · exact Or.inl same

/-- If the caller bound nothing but the statement's placeholders, each in one form,
    then whatever is bound after expansion is the value of an occurrence. -/
theorem exists_site_of_get?_expand {params : Parameters} (known : params.Within (namesOf sql))
    (single : params.OneForm) {name key : String} {value : Value} (plain : hasSigil name = false)
    (keyed : KeyOf name key)
    (found : ((rename sql).expansions.expand params).get? key = some value) :
    ∃ old, (old, name) ∈ sites sql ∧ params.value? old = some value := by
  have separate := separate_rename sql
  by_cases base : name ∈ (rename sql).expansions.names
  · rw [get?_expand_base separate params base keyed] at found
    contradiction
  by_cases made : ∃ base, name ∈ (rename sql).expansions.generated base
  · obtain ⟨base, generated⟩ := made
    have site := mem_sites_of_generated generated
    have free := notOverridden_of_within known base name generated
    have unbound : params.get? key ≠ some value := by
      intro bound
      have taken := Parameters.binds_of_get? keyed bound
      exact absurd (taken.symm.trans free) Bool.true_eq_false.mp
    rw [get?_expand_generated separate params generated keyed] at found
    refine ⟨base, site, ?_⟩
    split at found
    · exact absurd found unbound
    · next other bound =>
      split at found
      · rw [Parameters.value?, bound, Option.map_some, found]
      · exact absurd found unbound
  · have never (base : String) : name ∉ (rename sql).expansions.generated base :=
      fun generated => made ⟨base, generated⟩
    rw [get?_expand_other separate params plain base never keyed] at found
    obtain ⟨other, inside, again⟩ := known key (Parameters.mem_names_of_get? found)
    have same := eq_of_keyOf plain (plain_of_mem_namesOf inside) keyed again
    subst same
    obtain ⟨new, site⟩ := exists_mem_sites inside
    refine ⟨name, ?_, Parameters.value?_of_get? single keyed found⟩
    rcases renamed_cases site with generated | ⟨same, -, -⟩
    · exact absurd (mem_names_of_mem (exists_of_mem_generated generated)) base
    · exact same ▸ site

end Sites

/-- All names that a renaming made. -/
def Expansions.allGenerated (table : Expansions) : List String :=
  table.entries.flatMap (·.2)

theorem mem_allGenerated {table : Expansions} {name : String} :
    name ∈ table.allGenerated ↔ ∃ base, name ∈ table.generated base := by
  rw [Expansions.allGenerated, List.mem_flatMap]
  constructor
  · rintro ⟨entry, member, inside⟩
    exact ⟨entry.1, generated_of_mem member ▸ inside⟩
  · rintro ⟨base, generated⟩
    exact ⟨_, exists_of_mem_generated generated, generated⟩

/-- Occurrence by occurrence, the renamed statement finds in the expanded parameters
    the caller's own value for a generated name that the caller bound, and otherwise
    what the caller bound for the name that stood there before, be it nothing. -/
theorem expand_binds_occurrences (sql : String) (params : Parameters) :
    (scan (rename sql).sql).occurrences.length = (scan sql).occurrences.length
    ∧ (namesOf (rename sql).sql).map ((rename sql).expansions.expand params).value? =
        (sites sql).map fun (old, new) =>
          if new ∈ (rename sql).expansions.allGenerated ∧ params.binds new then
            params.value? new
          else params.value? old := by
  have lengths : (namesOf (rename sql).sql).length = (namesOf sql).length := by
    rw [namesOf_rename, length_renamedNames]
  constructor
  · simpa [namesOf] using lengths
  · have seconds : (sites sql).map (·.2) = namesOf (rename sql).sql :=
      List.map_snd_zip (Nat.le_of_eq lengths)
    conv_lhs => rw [← seconds]
    rw [List.map_map]
    apply List.map_congr_left
    rintro ⟨old, new⟩ member
    dsimp only [Function.comp_apply]
    rcases renamed_cases member with generated | ⟨rfl, -, -⟩
    · have known := mem_allGenerated.mpr ⟨old, generated⟩
      by_cases bound : params.binds new = true
      · rw [if_pos ⟨known, bound⟩, Parameters.value?, bound?_expand_rename params member,
          if_pos (Or.inr bound), Parameters.value?]
      · rw [if_neg fun both => bound both.2]
        exact value?_expand_rename params member (Or.inr (Bool.eq_false_iff.mpr bound))
    · rw [ite_self]
      exact value?_expand_rename params member (Or.inl rfl)

end Placeholder

end SealedColumns
