import SealedColumns.Proofs.Placeholder.Binding
import SealedColumns.Sealing

/-!
What a sealing pass does to the value under each key. A pass visits a key once.
A pass that goes through replaces the values under the visited keys that are not
blank, and no others, by ciphertexts of their own text form. A blank value stays
whatever becomes of the pass, and the pass is the same as if it were not visited.
-/

namespace SealedColumns

open Placeholder (Expansions rename sites renamed_cases separate_rename)
open Parameters (KeyOf eq_of_keyOf)

/-- What the cipher makes of a value, in some draw. -/
def Cipher.Seals (cipher : Cipher) (value sealed : Value) : Prop :=
  ∃ draw plaintext ciphertext, value.toText? = some plaintext
    ∧ cipher.encrypt draw plaintext = .ok ciphertext ∧ sealed = .text ciphertext

/-- Encryption of what is there, if it is due and not blank. -/
inductive Cipher.SealedIf (cipher : Cipher) (due : Prop) : Option Value → Option Value → Prop where
  | absent : cipher.SealedIf due none none
  | encrypted {value sealed : Value} (isDue : due) (visible : value.isBlank = false)
      (made : cipher.Seals value sealed) : cipher.SealedIf due (some value) (some sealed)
  | kept {value : Value} (exempt : ¬ (due ∧ value.isBlank = false)) :
      cipher.SealedIf due (some value) (some value)

/-- Whether something that is not blank is bound to the key. -/
def Parameters.shows (params : Parameters) (key : String) : Bool :=
  (params.get? key).map Value.isBlank == some false

theorem Parameters.shows_insert (params : Parameters) {key other : String} (value : Value)
    (differ : key ≠ other) : shows (params.insert other value) key = params.shows key := by
  rw [shows, NameMap.get?_insert, if_neg differ, shows]

/-- Blank values are passed over, and others need a text form. -/
def Value.Sealable (value : Value) : Prop := value.isBlank = true ∨ value.toText? ≠ none

/-- Whether an occurrence is visited: either of its names may be a configured column. -/
def Visited (columns : List String) (site : String × String) : Prop :=
  site.1 ∈ columns ∨ site.2 ∈ columns

instance (columns : List String) (site : String × String) : Decidable (Visited columns site) :=
  inferInstanceAs (Decidable (site.1 ∈ columns ∨ site.2 ∈ columns))

theorem exists_ok_of_map {ε α β : Type} {f : α → β} {outcome : Except ε α} {given : β}
    (done : outcome.map f = .ok given) : ∃ made, outcome = .ok made ∧ f made = given := by
  cases outcome with
  | error cause => contradiction
  | ok made => exact ⟨made, rfl, Except.ok.inj done⟩

namespace Sealing

@[simp] theorem after_params (later : Sealing) (plaintext : String) :
    (later.after plaintext).params = later.params := rfl

theorem after_ok_iff (later : Sealing) (plaintext : String) :
    (∃ count, (later.after plaintext).result = .ok count) ↔
      ∃ count, later.result = .ok count := by
  cases result : later.result <;> simp [Sealing.after, result, Except.map]

end Sealing

namespace Cipher
variable {cipher : Cipher}

theorem sealedIf_congr {due other : Prop} (same : due ↔ other) {before after : Option Value} :
    cipher.SealedIf due before after ↔ cipher.SealedIf other before after := by
  rw [propext same]

theorem sealedIf_none_iff {due : Prop} {after : Option Value} :
    cipher.SealedIf due none after ↔ after = none := by
  constructor
  · rintro ⟨⟩
    rfl
  · rintro rfl
    exact .absent

theorem sealedIf_some_iff {due : Prop} {value : Value} {after : Option Value} :
    cipher.SealedIf due (some value) after ↔
      (due ∧ value.isBlank = false ∧ ∃ sealed, cipher.Seals value sealed ∧ after = some sealed)
        ∨ (¬ (due ∧ value.isBlank = false) ∧ after = some value) := by
  constructor
  · intro done
    cases done with
    | encrypted isDue visible made => exact Or.inl ⟨isDue, visible, _, made, rfl⟩
    | kept exempt => exact Or.inr ⟨exempt, rfl⟩
  · rintro (⟨isDue, visible, sealed, made, rfl⟩ | ⟨exempt, rfl⟩)
    · exact .encrypted isDue visible made
    · exact .kept exempt

theorem sealedIf_self {due : Prop} (before : Option Value)
    (exempt : ∀ value, before = some value → ¬ (due ∧ value.isBlank = false)) :
    cipher.SealedIf due before before := by
  cases before with
  | none => exact .absent
  | some value => exact .kept (exempt value rfl)

theorem sealedIf_or {due : Prop} {before after other later : Option Value}
    (first : cipher.SealedIf due before after) (second : cipher.SealedIf due other later) :
    cipher.SealedIf due (before.or other) (after.or later) := by
  cases first with
  | absent => rwa [Option.none_or, Option.none_or]
  | encrypted isDue visible made => exact .encrypted isDue visible made
  | kept exempt => exact .kept exempt

/-- What holds under both keys of a name holds of the value found for it. -/
theorem sealedIf_value? {due : Prop} {before after : Parameters} {name : String}
    (each : ∀ key, KeyOf name key → cipher.SealedIf due (before.get? key) (after.get? key)) :
    cipher.SealedIf due (before.value? name) (after.value? name) := by
  rw [Parameters.value?_eq_or, Parameters.value?_eq_or]
  exact sealedIf_or (each name (Or.inl rfl)) (each (sigilKey name) (Or.inr rfl))

end Cipher

/-! Targets. -/

theorem mem_keys_firstVisits (targets : List Target) (key : String) :
    key ∈ (firstVisits targets).map (·.key) ↔ key ∈ targets.map (·.key) := by
  induction targets with
  | nil => rfl
  | cons first rest ih =>
      by_cases same : key = first.key
      · simp [firstVisits, same]
      · have kept : key ∈ ((firstVisits rest).filter
            fun later => later.key != first.key).map (·.key) ↔
            key ∈ (firstVisits rest).map (·.key) := by
          simp only [List.mem_map, List.mem_filter, bne_iff_ne]
          constructor
          · rintro ⟨target, ⟨member, -⟩, rfl⟩
            exact ⟨target, member, rfl⟩
          · rintro ⟨target, member, rfl⟩
            exact ⟨target, ⟨member, same⟩, rfl⟩
        rw [firstVisits, List.map_cons, List.map_cons, List.mem_cons, List.mem_cons, kept, ih]

theorem nodup_firstVisits (targets : List Target) :
    ((firstVisits targets).map (·.key)).Nodup := by
  induction targets with
  | nil => simp [firstVisits]
  | cons first rest ih =>
      rw [firstVisits, List.map_cons, List.nodup_cons]
      constructor
      · intro again
        obtain ⟨later, member, same⟩ := List.mem_map.mp again
        simpa [same] using (List.mem_filter.mp member).2
      · exact ih.sublist (List.filter_sublist.map _)

theorem nodup_targetsOf (columns : List String) (table : Expansions) :
    ((targetsOf columns table).map (·.key)).Nodup := nodup_firstVisits _

theorem keyOf_of_mem_targetsOfName {column name : String} {target : Target}
    (member : target ∈ targetsOfName column name) : KeyOf name target.key := by
  rcases List.mem_pair.mp member with rfl | rfl
  · exact Or.inl rfl
  · exact Or.inr rfl

/-- The keys of the configured columns and of the names generated for them. -/
theorem mem_keys_targetsOf (columns : List String) (table : Expansions) (key : String) :
    key ∈ (targetsOf columns table).map (·.key) ↔
      ∃ column ∈ columns, ∃ name ∈ column :: table.generated column, KeyOf name key := by
  rw [targetsOf, mem_keys_firstVisits, List.mem_map]
  constructor
  · rintro ⟨target, member, rfl⟩
    obtain ⟨column, configured, ofColumn⟩ := List.mem_flatMap.mp member
    obtain ⟨name, own, ofName⟩ := List.mem_flatMap.mp ofColumn
    exact ⟨column, configured, name, own, keyOf_of_mem_targetsOfName ofName⟩
  · rintro ⟨column, configured, name, own, keyed⟩
    refine ⟨⟨key, column⟩, List.mem_flatMap.mpr ⟨column, configured,
      List.mem_flatMap.mpr ⟨name, own, ?_⟩⟩, rfl⟩
    rcases keyed with rfl | rfl <;> simp [targetsOfName]

section Sites
variable {sql old new : String} {columns : List String} {key : String}

theorem mem_keys_of_configured (site : (old, new) ∈ sites sql) (configured : old ∈ columns)
    (keyed : KeyOf new key) :
    key ∈ (targetsOf columns (rename sql).expansions).map (·.key) := by
  apply (mem_keys_targetsOf _ _ _).mpr ⟨old, configured, new, _, keyed⟩
  rcases renamed_cases site with generated | ⟨rfl, -, -⟩
  · exact List.mem_cons_of_mem _ generated
  · exact List.mem_cons_self

theorem mem_keys_of_site (plain : ∀ column ∈ columns, hasSigil column = false)
    (site : (old, new) ∈ sites sql) (keyed : KeyOf new key) :
    key ∈ (targetsOf columns (rename sql).expansions).map (·.key) ↔
      Visited columns (old, new) := by
  have newPlain :=
    Placeholder.hasSigil_of_properName (Placeholder.properName_of_mem_sites site).2
  constructor
  · intro visited
    obtain ⟨column, configured, name, own, again⟩ := (mem_keys_targetsOf _ _ _).mp visited
    rcases List.mem_cons.mp own with rfl | generated
    · have same := eq_of_keyOf newPlain (plain name configured) keyed again
      exact Or.inr (same ▸ configured)
    · have same := eq_of_keyOf newPlain ((separate_rename sql).plainName column name generated)
        keyed again
      subst same
      rcases renamed_cases site with mine | ⟨rfl, -, never⟩
      · have origin := (separate_rename sql).apart old column new mine generated
        rw [origin]
        exact Or.inl configured
      · exact absurd generated (never column)
  · rintro (configured | configured)
    · exact mem_keys_of_configured site configured keyed
    · exact (mem_keys_targetsOf _ _ _).mpr ⟨new, configured, new, List.mem_cons_self, keyed⟩

end Sites

theorem firstVisits_filter (keep : String → Bool) (targets : List Target) :
    (firstVisits targets).filter (fun target => keep target.key) =
      firstVisits (targets.filter fun target => keep target.key) := by
  induction targets with
  | nil => rfl
  | cons first rest ih =>
      have swap (visits : List Target) :
          (visits.filter fun later => later.key != first.key).filter
            (fun target => keep target.key) =
          (visits.filter fun target => keep target.key).filter
            fun later => later.key != first.key := by
        simp only [List.filter_filter, Bool.and_comm]
      rw [firstVisits]
      cases kept : keep first.key with
      | true =>
          rw [List.filter_cons_of_pos (by exact kept), List.filter_cons_of_pos (by exact kept),
            firstVisits, swap, ih]
      | false =>
          rw [List.filter_cons_of_neg (by simp [kept]), List.filter_cons_of_neg (by simp [kept]),
            swap, ih]
          -- A key that is not kept is not among those that are.
          apply List.filter_eq_self.mpr
          intro later member
          rw [← ih] at member
          have keptLater := (List.mem_filter.mp member).2
          by_contra same
          have equal : later.key = first.key := by simpa using same
          rw [equal, kept] at keptLater
          contradiction

/-! The pass. -/

section Pass
variable {cipher : Cipher}

theorem get?_sealTargets_of_not_mem {targets : List Target} {params : Parameters} {draws : Nat}
    {key : String} (outside : key ∉ targets.map (·.key)) :
    (sealTargets cipher targets params draws).params.get? key = params.get? key := by
  fun_induction sealTargets cipher targets params draws with
  | case1 | case4 | case5 => rfl
  | case2 _ _ _ _ _ ih | case3 _ _ _ _ _ _ _ ih =>
      exact ih fun later => outside (List.mem_cons_of_mem _ later)
  | case6 target rest params draws value found visible plaintext text ciphertext answer ih =>
      have differ : key ≠ target.key := fun same => outside (by simp [same])
      rw [Sealing.after_params, ih fun later => outside (List.mem_cons_of_mem _ later),
        NameMap.get?_insert, if_neg differ]

/-- The pass never binds a key, and never touches a blank value. -/
theorem get?_sealTargets_of_blank {targets : List Target} {params : Parameters} {draws : Nat}
    {key : String} (blank : ∀ value ∈ params.get? key, value.isBlank = true) :
    (sealTargets cipher targets params draws).params.get? key = params.get? key := by
  fun_induction sealTargets cipher targets params draws with
  | case1 | case4 | case5 => rfl
  | case2 _ _ _ _ _ ih | case3 _ _ _ _ _ _ _ ih => exact ih blank
  | case6 target rest params draws value found visible plaintext text ciphertext answer ih =>
      have differ : key ≠ target.key := by
        rintro rfl
        exact visible (blank value found)
      have same : (params.insert target.key (.text ciphertext)).get? key = params.get? key := by
        rw [NameMap.get?_insert, if_neg differ]
      rw [Sealing.after_params, ih (by rwa [same]), same]

/-- Keys without a value to encrypt need not be visited. -/
theorem sealTargets_filter {skip : String → Bool} {targets : List Target} {params : Parameters}
    {draws : Nat}
    (blank : ∀ key, skip key = true → ∀ value ∈ params.get? key, value.isBlank = true) :
    sealTargets cipher (targets.filter fun target => !skip target.key) params draws =
      sealTargets cipher targets params draws := by
  induction targets generalizing params draws with
  | nil => rfl
  | cons target rest ih =>
      cases skipped : skip target.key with
      | true =>
          rw [List.filter_cons_of_neg (by simp [skipped]), ih blank, sealTargets]
          split
          · rfl
          · next value found => rw [if_pos (blank target.key skipped value found)]
      | false =>
          rw [List.filter_cons_of_pos (by simp [skipped]), sealTargets, sealTargets]
          split
          · exact ih blank
          · split
            · exact ih blank
            · split
              · rfl
              · split
                · rfl
                · next plaintext _ _ ciphertext _ =>
                  -- The key that is written is not one of the skipped ones.
                  apply congrArg (Sealing.after · plaintext)
                  apply ih
                  intro key skippedKey value
                  have differ : key ≠ target.key := by
                    rintro rfl
                    simp [skipped] at skippedKey
                  rw [NameMap.get?_insert, if_neg differ]
                  exact blank key skippedKey value

/-- A pass that goes through, at every key. -/
theorem sealTargets_ok {targets : List Target} {params : Parameters} {draws count : Nat}
    (distinct : (targets.map (·.key)).Nodup)
    (done : (sealTargets cipher targets params draws).result = .ok count) (key : String) :
    cipher.SealedIf (key ∈ targets.map (·.key)) (params.get? key)
      ((sealTargets cipher targets params draws).params.get? key) := by
  fun_induction sealTargets cipher targets params draws generalizing count with
  | case1 params draws => exact Cipher.sealedIf_self _ fun _ _ due => List.not_mem_nil due.1
  | case4 | case5 => contradiction
  | case2 target rest params draws absent ih =>
      have later := ih (List.nodup_cons.mp distinct).2 done
      by_cases same : key = target.key
      · rw [same, absent, Cipher.sealedIf_none_iff] at later
        rw [same, absent, Cipher.sealedIf_none_iff]
        exact later
      · simpa [same] using later
  | case3 target rest params draws value found blank ih =>
      obtain ⟨fresh, tail⟩ := List.nodup_cons.mp distinct
      have later := ih tail done
      by_cases same : key = target.key
      · have kept : (sealTargets cipher rest params draws).params.get? key = params.get? key := by
          rw [same]
          exact get?_sealTargets_of_not_mem fresh
        rw [kept]
        apply Cipher.sealedIf_self
        intro other bound due
        rw [same, found] at bound
        rw [← Option.some.inj bound, blank] at due
        exact Bool.noConfusion due.2
      · simpa [same] using later
  | case6 target rest params draws value found visible plaintext text ciphertext answer ih =>
      obtain ⟨fresh, tail⟩ := List.nodup_cons.mp distinct
      obtain ⟨others, doneLater⟩ := (Sealing.after_ok_iff _ _).mp ⟨_, done⟩
      have later := ih tail doneLater
      rw [Sealing.after_params]
      by_cases same : key = target.key
      · -- The key is written here and not visited again.
        subst same
        rw [found, get?_sealTargets_of_not_mem fresh, NameMap.get?_insert, if_pos rfl]
        exact .encrypted List.mem_cons_self (by simpa using visible)
          ⟨draws, plaintext, ciphertext, text, answer, rfl⟩
      · rw [NameMap.get?_insert, if_neg same] at later
        simpa [same] using later

/-- A pass does nothing but call the cipher. -/
theorem trace_sealTargets {targets : List Target} {params : Parameters} {draws : Nat}
    {action : Action} (member : action ∈ (sealTargets cipher targets params draws).trace) :
    ∃ plaintext, action = .cipher (.encrypt plaintext) := by
  fun_induction sealTargets cipher targets params draws with
  | case1 | case4 => simp at member
  | case2 _ _ _ _ _ ih | case3 _ _ _ _ _ _ _ ih => exact ih member
  | case5 _ _ _ _ _ _ _ plaintext => exact ⟨plaintext, List.mem_singleton.mp member⟩
  | case6 target rest params draws value found visible plaintext text ciphertext answer ih =>
      rcases List.mem_cons.mp member with rfl | later
      · exact ⟨plaintext, rfl⟩
      · exact ih later

/-- A pass binds no key and unbinds none, whatever becomes of it. -/
theorem contains_sealTargets (targets : List Target) (params : Parameters) (draws : Nat)
    (key : String) :
    (sealTargets cipher targets params draws).params.contains key = params.contains key := by
  fun_induction sealTargets cipher targets params draws with
  | case1 | case4 | case5 => rfl
  | case2 _ _ _ _ _ ih | case3 _ _ _ _ _ _ _ ih => exact ih
  | case6 target rest params draws value found visible plaintext text ciphertext answer ih =>
      rw [Sealing.after_params, ih, NameMap.contains, NameMap.get?_insert, NameMap.contains]
      -- What is written over was bound.
      by_cases same : key = target.key
      · rw [if_pos same, same, found]
        rfl
      · rw [if_neg same]

/-- If the cipher takes all plaintexts, a pass goes through unless it meets a value
    without a text form. -/
theorem sealTargets_ok_iff {targets : List Target} {params : Parameters} {draws : Nat}
    (distinct : (targets.map (·.key)).Nodup)
    (succeeds : ∀ key ∈ targets.map (·.key), ∀ value plaintext, params.get? key = some value →
      value.isBlank = false → value.toText? = some plaintext →
        ∀ draw, ∃ ciphertext, cipher.encrypt draw plaintext = .ok ciphertext) :
    (∃ count, (sealTargets cipher targets params draws).result = .ok count) ↔
      ∀ key ∈ targets.map (·.key), ∀ value, params.get? key = some value → value.Sealable := by
  fun_induction sealTargets cipher targets params draws with
  | case1 params draws => simp
  | case2 target rest params draws absent ih =>
      have later := ih (List.nodup_cons.mp distinct).2
        fun key member => succeeds key (List.mem_cons_of_mem _ member)
      rw [later, List.map_cons, List.forall_mem_cons]
      simp [absent]
  | case3 target rest params draws value found blank ih =>
      have later := ih (List.nodup_cons.mp distinct).2
        fun key member => succeeds key (List.mem_cons_of_mem _ member)
      rw [later, List.map_cons, List.forall_mem_cons]
      simp [found, blank, Value.Sealable]
  | case4 target rest params draws value found visible binary =>
      constructor
      · rintro ⟨count, done⟩
        contradiction
      · intro textual
        rcases textual target.key (by simp) value found with blank | text
        · exact absurd blank visible
        · exact absurd binary text
  | case5 target rest params draws value found visible plaintext text cause answer =>
      obtain ⟨ciphertext, done⟩ := succeeds target.key (by simp) value plaintext found
        (by simpa using visible) text draws
      rw [answer] at done
      contradiction
  | case6 target rest params draws value found visible plaintext text ciphertext answer ih =>
      obtain ⟨fresh, tail⟩ := List.nodup_cons.mp distinct
      have same : ∀ key ∈ rest.map (·.key),
          (params.insert target.key (.text ciphertext)).get? key = params.get? key := by
        intro key member
        have differ : key ≠ target.key := by
          rintro rfl
          exact fresh member
        rw [NameMap.get?_insert, if_neg differ]
      have later := ih tail fun key member value plaintext found =>
        succeeds key (List.mem_cons_of_mem _ member) value plaintext (same key member ▸ found)
      rw [Sealing.after_ok_iff, later, List.map_cons, List.forall_mem_cons]
      constructor
      · intro textual
        constructor
        · intro other bound
          have equal : value = other := Option.some.inj (found.symm.trans bound)
          rw [← equal]
          exact Or.inr (by simp [text])
        · intro key member
          exact same key member ▸ textual key member
      · rintro ⟨-, textual⟩ key member
        exact (same key member).symm ▸ textual key member

/-- A column under whose keys there is nothing to encrypt need not be configured. -/
theorem sealTargets_without {columns : List String} {table : Expansions} {column : String}
    {params : Parameters} {draws : Nat}
    (blank : ∀ name ∈ column :: table.generated column, ∀ key, KeyOf name key →
      ∀ value, params.get? key = some value → value.isBlank = true) :
    sealTargets cipher (targetsOf (columns.filter (· != column)) table) params draws =
      sealTargets cipher (targetsOf columns table) params draws := by
  let skip (key : String) : Bool :=
    (column :: table.generated column).any fun name => decide (KeyOf name key)
  have skipped : ∀ key, skip key = true → ∀ value ∈ params.get? key, value.isBlank = true := by
    intro key found
    obtain ⟨name, own, keyed⟩ := List.any_eq_true.mp found
    exact blank name own key (of_decide_eq_true keyed)
  have own : (targetsOfColumn table column).filter (fun target => !skip target.key) = [] := by
    apply List.filter_eq_nil_iff.mpr
    intro target member
    obtain ⟨name, mine, ofName⟩ := List.mem_flatMap.mp member
    have found : skip target.key = true :=
      List.any_eq_true.mpr ⟨name, mine, decide_eq_true (keyOf_of_mem_targetsOfName ofName)⟩
    simp [found]
  have same : (targetsOf (columns.filter (· != column)) table).filter
        (fun target => !skip target.key) =
      (targetsOf columns table).filter fun target => !skip target.key := by
    rw [targetsOf, targetsOf, firstVisits_filter (fun key => !skip key),
      firstVisits_filter (fun key => !skip key)]
    congr 1
    induction columns with
    | nil => rfl
    | cons first rest ih =>
        by_cases here : first = column
        · rw [List.filter_cons_of_neg (by simp [here]), ih, List.flatMap_cons,
            List.filter_append, here, own, List.nil_append]
        · rw [List.filter_cons_of_pos (by simpa using here), List.flatMap_cons,
            List.filter_append, ih, List.flatMap_cons, List.filter_append]
  -- Both lists of targets are the same once the keys of the column are left out.
  rw [← sealTargets_filter skipped, same, sealTargets_filter skipped]

end Pass

end SealedColumns
