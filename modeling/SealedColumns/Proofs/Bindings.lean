import Mathlib.Data.List.Nodup
import SealedColumns.Proofs.Placeholder.Binding
import SealedColumns.Sql.Cell

/-!
The bindings a database engine is given. Conversion gives every key its sigil and fails
exactly if two keys become one, and these are then the two keys of one name. Expansion
binds a generated name under a single key and only if it was not bound, so no such pair
comes about; but it drops both keys of a repeated name, and with them the pair.
-/

namespace SealedColumns

namespace Parameters

/-- The name is bound under both of its keys. -/
def BoundTwice (params : Parameters) (name : String) : Prop :=
  hasSigil name = false ∧ params.contains name = true ∧ params.contains (sigilKey name) = true

theorem contains_congr {left right : Parameters} {key : String}
    (same : left.get? key = right.get? key) : left.contains key = right.contains key := by
  rw [NameMap.contains, NameMap.contains, same]

theorem boundTwice_congr {left right : Parameters} {name : String}
    (same : ∀ key, KeyOf name key → left.get? key = right.get? key) :
    left.BoundTwice name ↔ right.BoundTwice name := by
  rw [BoundTwice, BoundTwice, contains_congr (same name (Or.inl rfl)),
    contains_congr (same (sigilKey name) (Or.inr rfl))]

end Parameters

namespace Sql.Bindings

open Parameters (KeyOf BoundTwice)

theorem keyWithSigil_of_keyOf {name key : String} (plain : hasSigil name = false)
    (keyed : KeyOf name key) : keyWithSigil key = sigilKey name := by
  rcases keyed with rfl | rfl
  · simp [keyWithSigil, plain]
  · simp [keyWithSigil]

/-- Two keys that conversion makes one are the keys of one name. -/
theorem keyOf_of_keyWithSigil_eq {left right : String} (differ : left ≠ right)
    (same : keyWithSigil left = keyWithSigil right) :
    ∃ name, hasSigil name = false ∧ keyWithSigil left = sigilKey name
      ∧ ((left = name ∧ right = sigilKey name) ∨ (left = sigilKey name ∧ right = name)) := by
  cases leftForm : hasSigil left with
  | true =>
      cases rightForm : hasSigil right with
      | true => exact absurd (by simpa [keyWithSigil, leftForm, rightForm] using same) differ
      | false =>
          have marked : left = sigilKey right := by
            simpa [keyWithSigil, leftForm, rightForm] using same
          exact ⟨right, rightForm, by simp [keyWithSigil, marked],
            Or.inr ⟨marked, rfl⟩⟩
  | false =>
      cases rightForm : hasSigil right with
      | true =>
          have marked : sigilKey left = right := by
            simpa [keyWithSigil, leftForm, rightForm] using same
          exact ⟨left, leftForm, by simp [keyWithSigil, leftForm], Or.inl ⟨rfl, marked.symm⟩⟩
      | false =>
          have names : sigilKey left = sigilKey right := by
            simpa [keyWithSigil, leftForm, rightForm] using same
          exact absurd (Parameters.sigilKey_injective names) differ

/-! Conversion of a list of entries. -/

def convert (entry : String × Value) : String × Cell := (keyWithSigil entry.1, .ofValue entry.2)

def keys (entries : List (String × Value)) : List String :=
  entries.map fun entry => keyWithSigil entry.1

theorem convertFrom_ok {seen : List String} {entries : List (String × Value)}
    {cells : List (String × Cell)} (distinct : seen.Nodup)
    (done : convertFrom seen entries = .ok cells) :
    cells = entries.map convert ∧ (seen ++ keys entries).Nodup := by
  induction entries generalizing seen cells with
  | nil =>
      obtain rfl := Except.ok.inj done
      exact ⟨rfl, by simpa [keys] using distinct⟩
  | cons entry rest ih =>
      rw [convertFrom] at done
      by_cases again : keyWithSigil entry.1 ∈ seen
      · simp [again] at done
      · simp only [again, ↓reduceIte] at done
        cases later : convertFrom (keyWithSigil entry.1 :: seen) rest with
        | error fault =>
            rw [later] at done
            contradiction
        | ok converted =>
            rw [later] at done
            obtain rfl := Except.ok.inj done
            obtain ⟨rfl, apart⟩ := ih (List.nodup_cons.mpr ⟨again, distinct⟩) later
            exact ⟨rfl, List.perm_middle.nodup_iff.mpr apart⟩

theorem convertFrom_error {seen : List String} {entries : List (String × Value)}
    {fault : ParameterFault} (failed : convertFrom seen entries = .error fault) :
    ∃ key, fault = .boundTwice key ∧ 2 ≤ (seen ++ keys entries).count key := by
  induction entries generalizing seen with
  | nil => contradiction
  | cons entry rest ih =>
      rw [convertFrom] at failed
      have swapped : seen ++ keys (entry :: rest) = seen ++ keyWithSigil entry.1 :: keys rest :=
        rfl
      -- The key that is told was seen before, or it is told by the rest.
      by_cases again : keyWithSigil entry.1 ∈ seen
      · simp only [again, ↓reduceIte, Except.error.injEq] at failed
        have before := List.count_pos_iff.mpr again
        refine ⟨keyWithSigil entry.1, failed.symm, ?_⟩
        rw [swapped, List.count_append, List.count_cons_self]
        omega
      · simp only [again, ↓reduceIte] at failed
        cases later : convertFrom (keyWithSigil entry.1 :: seen) rest with
        | ok cells =>
            rw [later] at failed
            contradiction
        | error other =>
            rw [later] at failed
            obtain rfl : other = fault := Except.error.inj failed
            obtain ⟨key, same, twice⟩ := ih later
            exact ⟨key, same, by rwa [swapped, List.perm_middle.count_eq]⟩

theorem keys_entries (params : Parameters) :
    keys params.entries = params.names.map keyWithSigil := by
  rw [keys, NameMap.names, List.map_map]
  rfl

theorem boundTwice_of_count {params : Parameters} {key : String}
    (twice : 2 ≤ (keys params.entries).count key) :
    ∃ name, key = sigilKey name ∧ params.BoundTwice name := by
  rw [keys_entries, List.count, List.countP_map, List.countP_eq_length_filter] at twice
  have distinct := params.nodup_names.filter ((· == key) ∘ keyWithSigil)
  have inside : ∀ other, other ∈ params.names.filter ((· == key) ∘ keyWithSigil) →
      params.contains other = true ∧ keyWithSigil other = key := by
    intro other member
    obtain ⟨known, same⟩ := List.mem_filter.mp member
    exact ⟨(NameMap.contains_iff _ _).mpr known, by simpa using same⟩
  -- The keys of the map are distinct, so two that become one are the two of a name.
  match found : params.names.filter ((· == key) ∘ keyWithSigil) with
  | [] | [_] => simp [found] at twice
  | left :: right :: rest =>
      rw [found] at distinct inside
      obtain ⟨leftBound, leftKey⟩ := inside left (by simp)
      obtain ⟨rightBound, rightKey⟩ := inside right (by simp)
      have differ : left ≠ right := by
        rintro rfl
        simp at distinct
      obtain ⟨name, plain, same, pair⟩ :=
        keyOf_of_keyWithSigil_eq differ (leftKey.trans rightKey.symm)
      refine ⟨name, leftKey.symm.trans same, plain, ?_⟩
      rcases pair with ⟨rfl, rfl⟩ | ⟨rfl, rfl⟩
      · exact ⟨leftBound, rightBound⟩
      · exact ⟨rightBound, leftBound⟩

theorem ofParams_ok {params : Parameters} {bindings : Bindings}
    (done : ofParams params = .ok bindings) :
    bindings.entries = params.entries.map convert ∧ (keys params.entries).Nodup := by
  unfold ofParams at done
  cases converted : convertFrom [] params.entries with
  | error fault =>
      rw [converted] at done
      contradiction
  | ok cells =>
      rw [converted] at done
      obtain rfl := Except.ok.inj done
      exact convertFrom_ok List.nodup_nil converted

theorem ofParams_error {params : Parameters} {fault : ParameterFault}
    (failed : ofParams params = .error fault) :
    ∃ name, params.BoundTwice name ∧ fault = .boundTwice (sigilKey name) := by
  unfold ofParams at failed
  cases converted : convertFrom [] params.entries with
  | ok cells =>
      rw [converted] at failed
      contradiction
  | error other =>
      rw [converted] at failed
      obtain rfl : other = fault := Except.error.inj failed
      obtain ⟨key, rfl, twice⟩ := convertFrom_error converted
      obtain ⟨name, rfl, both⟩ := boundTwice_of_count (by simpa using twice)
      exact ⟨name, both, rfl⟩

theorem ofParams_error_iff (params : Parameters) :
    (∃ fault, ofParams params = .error fault) ↔ ∃ name, params.BoundTwice name := by
  constructor
  · rintro ⟨fault, failed⟩
    obtain ⟨name, both, -⟩ := ofParams_error failed
    exact ⟨name, both⟩
  · rintro ⟨name, plain, bare, marked⟩
    cases done : ofParams params with
    | error fault => exact ⟨fault, rfl⟩
    | ok bindings =>
        -- The two keys are distinct, but not once they are converted.
        have distinct := (ofParams_ok done).2
        rw [keys_entries] at distinct
        have same := List.inj_on_of_nodup_map distinct ((NameMap.contains_iff _ _).mp bare)
          ((NameMap.contains_iff _ _).mp marked) (by simp [keyWithSigil, plain])
        exact absurd same.symm (Parameters.sigilKey_ne name)

end Sql.Bindings

namespace Placeholder

open Parameters (KeyOf BoundTwice Within BindsOnce OneForm)
open Sql (Bindings Cell)

/-- Expansion binds no name twice, and unbinds the repeated ones. -/
theorem boundTwice_expand_iff {table : Expansions} (separate : table.Separate)
    (params : Parameters) (name : String) :
    (table.expand params).BoundTwice name ↔ params.BoundTwice name ∧ name ∉ table.names := by
  by_cases marked : hasSigil name = true
  · simp [BoundTwice, marked]
  have plain : hasSigil name = false := Bool.eq_false_iff.mpr marked
  by_cases base : name ∈ table.names
  · have gone := get?_expand_base separate params base (Or.inl rfl)
    simp [BoundTwice, NameMap.contains, gone, base]
  simp only [base, not_false_eq_true, and_true]
  by_cases made : ∃ base, name ∈ table.generated base
  · obtain ⟨base, generated⟩ := made
    have step {key : String} (keyed : KeyOf name key) :=
      get?_expand_generated separate params generated keyed
    cases free : params.binds name with
    | true =>
        apply Parameters.boundTwice_congr
        intro key keyed
        rw [step keyed]
        split <;> simp [free]
    | false =>
        obtain ⟨bare, sealed⟩ := (Parameters.bound?_eq_none_iff _ _).mp
          ((Parameters.binds_eq_false_iff _ _).mp free)
        have differ := Parameters.sigilKey_ne name
        -- The value of the base is bound under one key, in the form of the base's own.
        have bareKey := step (Or.inl rfl)
        have sealedKey := step (Or.inr rfl)
        cases bound : params.bound? base with
        | none => simp [BoundTwice, NameMap.contains, bareKey, bound, bare]
        | some found =>
            rw [bound] at bareKey sealedKey
            cases form : hasSigil found.1 <;>
              simp [BoundTwice, NameMap.contains, bareKey, sealedKey, free, form, keyLike, bare,
                sealed, differ, differ.symm]
  · have never (base : String) : name ∉ table.generated base :=
      fun generated => made ⟨base, generated⟩
    exact Parameters.boundTwice_congr fun key keyed =>
      get?_expand_other separate params plain base never keyed

/-- Parameters are refused for the names they bind twice. Expansion takes from these the
    repeated names and adds none: of a repeated name bound twice each occurrence gets the
    value under the bare key, unless the caller bound its new name. -/
theorem ofParams_expand_fails_iff (sql : String) (params : Parameters) :
    ((∃ fault, Bindings.ofParams params = .error fault) ↔ ∃ name, params.BoundTwice name)
    ∧ ((∃ fault, Bindings.ofParams ((rename sql).expansions.expand params) = .error fault) ↔
        ∃ name, params.BoundTwice name ∧ repeatedIn sql name = false)
    ∧ (∀ fault, Bindings.ofParams params = .error fault
          ∨ Bindings.ofParams ((rename sql).expansions.expand params) = .error fault →
        ∃ name, params.BoundTwice name ∧ fault = .boundTwice (sigilKey name))
    ∧ ∀ site ∈ sites sql, repeatedIn sql site.1 = true → params.BoundTwice site.1 →
        params.binds site.2 = false →
          ((rename sql).expansions.expand params).value? site.2 = params.get? site.1 := by
  have twice (name : String) : ((rename sql).expansions.expand params).BoundTwice name ↔
      params.BoundTwice name ∧ repeatedIn sql name = false := by
    rw [boundTwice_expand_iff (separate_rename sql), mem_names_expansions, Bool.not_eq_true]
  refine ⟨Bindings.ofParams_error_iff params, ?_, ?_, ?_⟩
  · rw [Bindings.ofParams_error_iff]
    exact exists_congr twice
  · rintro fault (failed | failed)
    · exact Bindings.ofParams_error failed
    · obtain ⟨name, both, told⟩ := Bindings.ofParams_error failed
      exact ⟨name, ((twice name).mp both).1, told⟩
  · rintro ⟨old, new⟩ site - ⟨-, bare, -⟩ free
    obtain ⟨value, found⟩ := Option.isSome_iff_exists.mp bare
    rw [value?_expand_rename params site (Or.inr free), Parameters.value?_eq_or, found,
      Option.some_or]

/-- The repeated name is bound twice: as they are, the parameters are refused; expanded
    for the statement, they are taken, and the value under the bare key is bound. -/
theorem double_binding_hidden :
    let params : Parameters := NameMap.ofList [("x", .int 1), (":x", .int 2)]
    Bindings.ofParams params = .error (.boundTwice ":x")
      ∧ Bindings.ofParams ((rename ":x :x").expansions.expand params) =
          .ok ⟨[(":x_0", .integer 1), (":x_1", .integer 1)]⟩ := by
  decide +kernel

/-! Parameters that are exactly those of a statement. -/

/-- Each placeholder of the statement is bound under one key, and nothing else is bound. -/
structure Exact (sql : String) (params : Parameters) : Prop where
  once : ∀ name ∈ namesOf sql, ∃ value, params.BindsOnce name value
  known : params.Within (namesOf sql)

section Exact
variable {sql : String} {params : Parameters}

theorem Exact.oneForm (exact : Exact sql params) : params.OneForm := by
  intro name
  by_contra both
  obtain ⟨bare, marked⟩ : params.contains name = true ∧ params.contains (sigilKey name) = true := by
    simpa using both
  -- The key with the sigil belongs to a placeholder, which can only be the name itself.
  obtain ⟨other, member, keyed⟩ := exact.known _ ((NameMap.contains_iff _ _).mp marked)
  have plain := plain_of_mem_namesOf member
  have same : name = other := by
    rcases keyed with same | same
    · rw [← same, Parameters.hasSigil_sigilKey] at plain
      contradiction
    · exact Parameters.sigilKey_injective same
  subst same
  obtain ⟨value, key, -, each⟩ := exact.once name member
  have first := each name (Or.inl rfl)
  have second := each (sigilKey name) (Or.inr rfl)
  obtain ⟨found, here⟩ := Option.isSome_iff_exists.mp bare
  obtain ⟨again, there⟩ := Option.isSome_iff_exists.mp marked
  rw [here] at first
  rw [there] at second
  split at first
  · next atName =>
    split at second
    · next atSigil => exact Parameters.sigilKey_ne name (atSigil.trans atName.symm)
    · contradiction
  · contradiction

theorem Exact.not_boundTwice (exact : Exact sql params) (name : String) :
    ¬ params.BoundTwice name := by
  rintro ⟨-, bare, marked⟩
  rcases exact.oneForm name with unbound | unbound <;> simp_all

theorem Exact.site_of_get?_expand (exact : Exact sql params) {key : String} {value : Value}
    (found : ((rename sql).expansions.expand params).get? key = some value) :
    ∃ site ∈ sites sql, KeyOf site.2 key ∧ params.value? site.1 = some value := by
  have separate := separate_rename sql
  have owner : ∃ name, hasSigil name = false ∧ KeyOf name key := by
    by_contra foreign
    have untouched : ((rename sql).expansions.expand params).get? key = params.get? key := by
      refine get?_expandEntries_apart separate.plain_of_mem fun entry member => ⟨?_, ?_⟩
      · intro keyed
        exact foreign ⟨_, separate.plainBase _ (mem_names_of_mem member), keyed⟩
      · intro name inside keyed
        exact foreign ⟨name, separate.plain_of_mem entry member name inside, keyed⟩
    rw [untouched] at found
    obtain ⟨name, member, keyed⟩ := exact.known key (Parameters.mem_names_of_get? found)
    exact foreign ⟨name, plain_of_mem_namesOf member, keyed⟩
  obtain ⟨name, plain, keyed⟩ := owner
  obtain ⟨old, site, bound⟩ :=
    exists_site_of_get?_expand exact.known exact.oneForm plain keyed found
  exact ⟨(old, name), site, keyed, bound⟩

theorem Exact.value?_site (exact : Exact sql params) {site : String × String}
    (member : site ∈ sites sql) :
    ∃ value, params.value? site.1 = some value
      ∧ ∃ key, KeyOf site.2 key
        ∧ ((rename sql).expansions.expand params).get? key = some value := by
  obtain ⟨value, once⟩ := exact.once site.1 (List.of_mem_zip member).1
  have bound := once.value?_eq
  refine ⟨value, bound, Parameters.get?_of_value? ?_⟩
  rw [value?_expand_of_notOverridden (notOverridden_of_within exact.known site.1) member, bound]

theorem map_snd_sites (sql : String) : (sites sql).map (·.2) = namesOf (rename sql).sql := by
  apply List.map_snd_zip
  rw [namesOf_rename, length_renamedNames]

theorem Exact.mem_keys_iff (exact : Exact sql params) (key : String) :
    key ∈ Bindings.keys ((rename sql).expansions.expand params).entries ↔
      key ∈ (namesOf (rename sql).sql).map sigilKey := by
  rw [← map_snd_sites, List.map_map]
  constructor
  · intro member
    obtain ⟨⟨own, value⟩, inside, rfl⟩ := List.mem_map.mp member
    have found := (NameMap.get?_eq_some_iff _ own value).mpr inside
    obtain ⟨site, place, keyed, -⟩ := exact.site_of_get?_expand found
    have plain := hasSigil_of_properName (properName_of_mem_sites place).2
    exact List.mem_map.mpr ⟨site, place, (Bindings.keyWithSigil_of_keyOf plain keyed).symm⟩
  · intro member
    obtain ⟨site, place, rfl⟩ := List.mem_map.mp member
    obtain ⟨value, -, own, keyed, found⟩ := exact.value?_site place
    have plain := hasSigil_of_properName (properName_of_mem_sites place).2
    exact List.mem_map.mpr ⟨(own, value), (NameMap.get?_eq_some_iff _ _ _).mp found,
      Bindings.keyWithSigil_of_keyOf plain keyed⟩

end Exact

/-- Parameters that are exactly those of a statement are taken after expansion: the engine
    is given each name of the renamed text once, with its sigil and no other name, and
    under it the value that was bound for the name it replaced. -/
theorem bindings_of_exact {sql : String} {params : Parameters} (exact : Exact sql params) :
    ∃ bindings, Bindings.ofParams ((rename sql).expansions.expand params) = .ok bindings
      ∧ (bindings.entries.map (·.1)).Nodup
      ∧ (bindings.entries.map (·.1)).Perm ((namesOf (rename sql).sql).map sigilKey)
      ∧ ∀ site ∈ sites sql, ∃ value, params.value? site.1 = some value
          ∧ (sigilKey site.2, Cell.ofValue value) ∈ bindings.entries := by
  cases done : Bindings.ofParams ((rename sql).expansions.expand params) with
  | error fault =>
      obtain ⟨name, twice, -⟩ := Bindings.ofParams_error done
      rw [boundTwice_expand_iff (separate_rename sql)] at twice
      exact absurd twice.1 (exact.not_boundTwice name)
  | ok bindings =>
      obtain ⟨entries, distinct⟩ := Bindings.ofParams_ok done
      have keys : bindings.entries.map (·.1) =
          Bindings.keys ((rename sql).expansions.expand params).entries := by
        rw [entries, List.map_map]
        rfl
      have names : ((namesOf (rename sql).sql).map sigilKey).Nodup := by
        rw [namesOf_rename]
        exact (nodup_renamedNames sql).map fun _ _ same => Parameters.sigilKey_injective same
      refine ⟨bindings, rfl, keys ▸ distinct, ?_, ?_⟩
      · rw [keys]
        exact (List.perm_ext_iff_of_nodup distinct names).mpr exact.mem_keys_iff
      · intro site place
        obtain ⟨value, bound, own, keyed, found⟩ := exact.value?_site place
        have plain := hasSigil_of_properName (properName_of_mem_sites place).2
        refine ⟨value, bound, ?_⟩
        rw [entries, ← Bindings.keyWithSigil_of_keyOf plain keyed]
        exact List.mem_map.mpr ⟨(own, value), (NameMap.get?_eq_some_iff _ _ _).mp found, rfl⟩

/-- A repeated name bound with its sigil, and a single one bound without. -/
theorem bindings_of_mixed_keys :
    let params : Parameters := NameMap.ofList [(":x", .int 1), ("y", .bool true)]
    Exact "SELECT :x, :y, :x" params
      ∧ ∃ bindings, Bindings.ofParams ((rename "SELECT :x, :y, :x").expansions.expand params) =
          .ok bindings
        ∧ (bindings.entries.map (·.1)).Perm [":x_0", ":y", ":x_1"]
        ∧ (":x_1", .integer 1) ∈ bindings.entries ∧ (":y", .integer 1) ∈ bindings.entries := by
  intro params
  have names : namesOf "SELECT :x, :y, :x" = ["x", "y", "x"] := by decide +kernel
  have found : sites "SELECT :x, :y, :x" = [("x", "x_0"), ("y", "y"), ("x", "x_1")] := by
    decide +kernel
  have x : params.BindsOnce "x" (.int 1) :=
    ⟨":x", Or.inr rfl, by rintro key (rfl | rfl) <;> simp [params, NameMap.ofList, sigilKey]⟩
  have y : params.BindsOnce "y" (.bool true) :=
    ⟨"y", Or.inl rfl, by rintro key (rfl | rfl) <;> simp [params, NameMap.ofList, sigilKey]⟩
  have exact : Exact "SELECT :x, :y, :x" params := by
    constructor
    · rw [names]
      have last : ∀ name ∈ ["x"], ∃ value, params.BindsOnce name value := by simpa using ⟨_, x⟩
      exact List.forall_mem_cons.mpr ⟨⟨_, x⟩, List.forall_mem_cons.mpr ⟨⟨_, y⟩, last⟩⟩
    · rw [names]
      decide +kernel
  refine ⟨exact, ?_⟩
  obtain ⟨bindings, done, -, keys, values⟩ := bindings_of_exact exact
  have renamed :
      (namesOf (rename "SELECT :x, :y, :x").sql).map sigilKey = [":x_0", ":y", ":x_1"] := by
    decide +kernel
  obtain ⟨first, bound, atX⟩ := values ("x", "x_1") (by simp [found])
  obtain ⟨second, again, atY⟩ := values ("y", "y") (by simp [found])
  obtain rfl := Option.some.inj (bound.symm.trans x.value?_eq)
  obtain rfl := Option.some.inj (again.symm.trans y.value?_eq)
  exact ⟨bindings, done, renamed ▸ keys, atX, atY⟩

end Placeholder

end SealedColumns
