import SealedColumns.Proofs.Placeholder.Binding

/-!
What expansion does under every key. Each entry of the table works on the keys of its own
base and of the names generated for it. The entries of a renaming have no key in common,
so they can be worked off in any order, and once they are there is nothing left to do.
-/

namespace SealedColumns.Placeholder

open Parameters (KeyOf bound?_congr)

/-- The keys that an entry reads and writes. -/
def Touches (entry : String × List String) (key : String) : Prop :=
  KeyOf entry.1 key ∨ ∃ name ∈ entry.2, KeyOf name key

/-- The key is bound to the value by expansion: a generated name, bound under neither of its
    keys, is given the value of its base under the key of the form that the base has. -/
def Receives (table : Expansions) (params : Parameters) (key : String) (value : Value) : Prop :=
  ∃ base found name, params.bound? base = some (found, value) ∧ name ∈ table.generated base
    ∧ params.binds name = false ∧ key = if found = base then name else sigilKey name

section Entry
variable {entry other : String × List String} {key : String}

theorem get?_expandName_of_not_touches (plain : ∀ name ∈ entry.2, hasSigil name = false)
    (params : Parameters) (apart : ¬ Touches entry key) :
    (expandName params entry.1 entry.2).get? key = params.get? key := by
  rw [Touches, not_or] at apart
  have kept : (expandEntries params [entry]).get? key = params.get? key := by
    refine get?_expandEntries_apart ?_ ?_
    · simpa using plain
    · simpa using apart
  exact kept

/-- An entry makes the same of parameters that are the same under its keys. -/
theorem get?_expandName_congr (plain : ∀ name ∈ entry.2, hasSigil name = false)
    {left right : Parameters} (same : ∀ key, Touches entry key → left.get? key = right.get? key)
    (touched : Touches entry key) :
    (expandName left entry.1 entry.2).get? key = (expandName right entry.1 entry.2).get? key := by
  have bound : left.bound? entry.1 = right.bound? entry.1 :=
    bound?_congr fun key keyed => same key (Or.inl keyed)
  have binds : ∀ name ∈ entry.2, left.binds name = right.binds name := by
    intro name member
    rw [Parameters.binds, Parameters.binds,
      bound?_congr fun key keyed => same key (Or.inr ⟨name, member, keyed⟩)]
  rw [get?_expandName left entry.1 plain, get?_expandName right entry.1 plain, bound]
  split
  · rfl
  · split
    · exact same key touched
    · apply if_congr _ rfl (same key touched)
      constructor
      · rintro ⟨name, member, free, keyed⟩
        exact ⟨name, member, binds name member ▸ free, keyed⟩
      · rintro ⟨name, member, free, keyed⟩
        exact ⟨name, member, (binds name member).trans free, keyed⟩

theorem expandName_comm (plain : ∀ name ∈ entry.2, hasSigil name = false)
    (otherPlain : ∀ name ∈ other.2, hasSigil name = false)
    (apart : ∀ key, Touches entry key → ¬ Touches other key) (params : Parameters) :
    expandName (expandName params entry.1 entry.2) other.1 other.2 =
      expandName (expandName params other.1 other.2) entry.1 entry.2 := by
  apply NameMap.ext_get?
  intro key
  by_cases mine : Touches entry key
  · rw [get?_expandName_of_not_touches otherPlain _ (apart key mine)]
    refine get?_expandName_congr plain (fun key touched => ?_) mine
    rw [get?_expandName_of_not_touches otherPlain _ (apart key touched)]
  · rw [get?_expandName_of_not_touches plain _ mine]
    by_cases theirs : Touches other key
    · refine get?_expandName_congr otherPlain (fun key touched => ?_) theirs
      have free : ¬ Touches entry key := fun mine => apart key mine touched
      rw [get?_expandName_of_not_touches plain _ free]
    · rw [get?_expandName_of_not_touches otherPlain _ theirs,
        get?_expandName_of_not_touches otherPlain _ theirs,
        get?_expandName_of_not_touches plain _ mine]

end Entry

section Table
variable {table : Expansions}

theorem Expansions.Separate.not_touches (separate : table.Separate)
    {entry other : String × List String} (here : entry ∈ table.entries)
    (there : other ∈ table.entries) (differ : entry.1 ≠ other.1) {key : String}
    (touched : Touches entry key) : ¬ Touches other key := by
  obtain ⟨own, owned, keyed⟩ : ∃ own, (own = entry.1 ∨ own ∈ entry.2) ∧ KeyOf own key := by
    rcases touched with base | ⟨name, member, keyed⟩
    · exact ⟨entry.1, Or.inl rfl, base⟩
    · exact ⟨name, Or.inr member, keyed⟩
  obtain ⟨base, names⟩ := separate.apart_of_ne here there differ owned keyed
  rintro (again | ⟨name, member, again⟩)
  · exact base again
  · exact names name member again

theorem expandEntries_perm (separate : table.Separate) {entries : List (String × List String)}
    (order : entries.Perm table.entries) (params : Parameters) :
    expandEntries params entries = table.expand params := by
  refine order.foldl_eq' ?_ params
  intro entry here other there params
  have entryIn := order.mem_iff.mp here
  have otherIn := order.mem_iff.mp there
  by_cases same : entry.1 = other.1
  · -- There is one entry for a name.
    have lists : entry.2 = other.2 := by
      rw [← generated_of_mem entryIn, ← generated_of_mem otherIn, same]
    rw [same, lists]
  · exact expandName_comm (separate.plain_of_mem entry entryIn)
      (separate.plain_of_mem other otherIn)
      (fun _ touched => separate.not_touches entryIn otherIn same touched) params

theorem expandEntries_of_unbound {entries : List (String × List String)} {params : Parameters}
    (unbound : ∀ entry ∈ entries, params.bound? entry.1 = none) :
    expandEntries params entries = params := by
  induction entries with
  | nil => rfl
  | cons entry rest ih =>
      have kept : expandName params entry.1 entry.2 = params := by
        rw [expandName, unbound entry (by simp)]
      rw [expandEntries, List.foldl_cons, kept]
      exact ih fun other member => unbound other (by simp [member])

theorem expand_expand (separate : table.Separate) (params : Parameters) :
    table.expand (table.expand params) = table.expand params := by
  refine expandEntries_of_unbound fun entry member => ?_
  have base := mem_names_of_mem member
  rw [Parameters.bound?_eq_none_iff]
  exact ⟨get?_expand_base separate params base (Or.inl rfl),
    get?_expand_base separate params base (Or.inr rfl)⟩

theorem keyLike_of_bound? {params : Parameters} {base found : String} {value : Value}
    (plain : hasSigil base = false) (bound : params.bound? base = some (found, value))
    (name : String) :
    keyLike (hasSigil found) name = if found = base then name else sigilKey name := by
  rcases (Parameters.keyOf_of_bound? bound).1 with rfl | rfl
  · rw [plain, if_pos rfl]
    rfl
  · rw [Parameters.hasSigil_sigilKey, if_neg (Parameters.sigilKey_ne base)]
    rfl

theorem get?_expand_of_receives (separate : table.Separate) {params : Parameters} {key : String}
    {value : Value} (received : Receives table params key value) :
    (table.expand params).get? key = some value := by
  obtain ⟨base, found, name, bound, generated, free, rfl⟩ := received
  have plain := separate.plainBase base (mem_names_of_mem (exists_of_mem_generated generated))
  rw [← keyLike_of_bound? plain bound,
    get?_expand_generated separate params generated (keyOf_keyLike _ name), bound]
  exact if_pos ⟨free, rfl⟩

theorem get?_expand_of_not_receives (separate : table.Separate) {params : Parameters}
    {key : String} (base : ¬ ∃ base ∈ table.names, KeyOf base key)
    (received : ¬ ∃ value, Receives table params key value) :
    (table.expand params).get? key = params.get? key := by
  by_cases own : ∃ base, ∃ name ∈ table.generated base, KeyOf name key
  · obtain ⟨origin, name, generated, keyed⟩ := own
    have plain := separate.plainBase origin (mem_names_of_mem (exists_of_mem_generated generated))
    rw [get?_expand_generated separate params generated keyed]
    cases bound : params.bound? origin with
    | none => rfl
    | some pair =>
        obtain ⟨found, value⟩ := pair
        refine if_neg ?_
        rintro ⟨free, same⟩
        rw [keyLike_of_bound? plain bound] at same
        exact received ⟨value, origin, found, name, bound, generated, free, same⟩
  · refine get?_expandEntries_apart separate.plain_of_mem fun entry member => ⟨?_, ?_⟩
    · exact fun keyed => base ⟨entry.1, mem_names_of_mem member, keyed⟩
    · exact fun name inside keyed =>
        own ⟨entry.1, name, generated_of_mem member ▸ inside, keyed⟩

end Table

/-- Expansion unbinds the repeated names, binds those generated names that are not bound to
    the values of their bases, in the form in which these are bound, and leaves all other keys
    alone. The order of the entries makes no difference, nor does a second expansion. -/
theorem expand_under_every_key (sql : String) (params : Parameters) :
    let table := (rename sql).expansions
    (∀ key, (∃ base ∈ table.names, KeyOf base key) → (table.expand params).get? key = none)
    ∧ (∀ key value, Receives table params key value →
        (table.expand params).get? key = some value)
    ∧ (∀ key, (¬ ∃ base ∈ table.names, KeyOf base key) →
        (¬ ∃ value, Receives table params key value) →
          (table.expand params).get? key = params.get? key)
    ∧ (∀ entries, entries.Perm table.entries →
        expandEntries params entries = table.expand params)
    ∧ table.expand (table.expand params) = table.expand params := by
  intro table
  have separate : table.Separate := separate_rename sql
  refine ⟨?_, fun _ _ => get?_expand_of_receives separate,
    fun _ => get?_expand_of_not_receives separate,
    fun _ order => expandEntries_perm separate order params, expand_expand separate params⟩
  rintro key ⟨base, member, keyed⟩
  exact get?_expand_base separate params member keyed

/-- The value goes to the name that the caller left free, with the sigil that it came with. -/
example :
    ((rename ":x, :x").expansions.expand
      (NameMap.ofList [(":x", .int 1), ("x_1", .int 2)])).names = [":x_0", "x_1"] := by
  decide +kernel

end SealedColumns.Placeholder
