import SealedColumns.Parameters

/-!
The two keys of a placeholder. Names without a sigil have no key in common, so what
happens to the keys of one name does not concern another. The value found for a name
is that of its bare key, or else that of the key with the sigil.
-/

namespace SealedColumns

namespace Parameters

/-- The keys under which a name may be bound. -/
def KeyOf (name key : String) : Prop := key = name ∨ key = sigilKey name

instance (name key : String) : Decidable (KeyOf name key) :=
  inferInstanceAs (Decidable (key = name ∨ key = sigilKey name))

/-- The value found for a placeholder. -/
def value? (params : Parameters) (name : String) : Option Value :=
  (params.bound? name).map (·.2)

theorem sigilKey_ne_of_plain {name other : String} (plain : hasSigil name = false) :
    name ≠ sigilKey other := by
  rintro rfl
  simp at plain

theorem eq_of_keyOf {name other key : String} (plain : hasSigil name = false)
    (otherPlain : hasSigil other = false) (first : KeyOf name key) (second : KeyOf other key) :
    name = other := by
  rcases first with rfl | rfl <;> rcases second with same | same
  · exact same
  · exact absurd same (sigilKey_ne_of_plain plain)
  · exact absurd same.symm (sigilKey_ne_of_plain otherPlain)
  · exact sigilKey_injective same

theorem keyOf_of_bound? {params : Parameters} {name key : String} {value : Value}
    (found : params.bound? name = some (key, value)) :
    KeyOf name key ∧ params.get? key = some value := by
  unfold bound? at found
  split at found
  · next bare =>
    obtain ⟨rfl, rfl⟩ := Prod.mk.inj (Option.some.inj found)
    exact ⟨Or.inl rfl, bare⟩
  · obtain ⟨other, sealed, same⟩ := Option.map_eq_some_iff.mp found
    obtain ⟨rfl, rfl⟩ := Prod.mk.inj same
    exact ⟨Or.inr rfl, sealed⟩

theorem bound?_eq_none_iff (params : Parameters) (name : String) :
    params.bound? name = none ↔ params.get? name = none ∧ params.get? (sigilKey name) = none := by
  unfold bound?
  cases params.get? name <;> simp

/-- The bare key is looked up first. -/
theorem value?_eq_or (params : Parameters) (name : String) :
    params.value? name = (params.get? name).or (params.get? (sigilKey name)) := by
  unfold value? bound?
  cases params.get? name with
  | none => cases params.get? (sigilKey name) <;> rfl
  | some value => rfl

/-- No name is bound under both of its keys. -/
def OneForm (params : Parameters) : Prop :=
  ∀ name, params.contains name = false ∨ params.contains (sigilKey name) = false

theorem value?_of_get? {params : Parameters} (single : params.OneForm) {name key : String}
    {value : Value} (keyed : KeyOf name key) (found : params.get? key = some value) :
    params.value? name = some value := by
  rw [value?_eq_or]
  rcases keyed with rfl | rfl
  · rw [found, Option.some_or]
  · rcases single name with bare | marked
    · have unbound : params.get? name = none := by simpa [NameMap.contains] using bare
      rw [unbound, Option.none_or, found]
    · simp [NameMap.contains, found] at marked

theorem get?_of_value? {params : Parameters} {name : String} {value : Value}
    (found : params.value? name = some value) :
    ∃ key, KeyOf name key ∧ params.get? key = some value := by
  obtain ⟨⟨key, other⟩, bound, rfl⟩ := Option.map_eq_some_iff.mp found
  exact ⟨key, keyOf_of_bound? bound⟩

theorem bound?_congr {left right : Parameters} {name : String}
    (same : ∀ key, KeyOf name key → left.get? key = right.get? key) :
    left.bound? name = right.bound? name := by
  rw [bound?, bound?, same name (Or.inl rfl), same (sigilKey name) (Or.inr rfl)]

theorem binds_eq_false_iff (params : Parameters) (name : String) :
    params.binds name = false ↔ params.bound? name = none := by
  simp [binds]

theorem binds_of_get? {params : Parameters} {name key : String} {value : Value}
    (keyed : KeyOf name key) (found : params.get? key = some value) :
    params.binds name = true := by
  cases bound : params.binds name with
  | true => rfl
  | false =>
      obtain ⟨bare, marked⟩ := (bound?_eq_none_iff _ _).mp ((binds_eq_false_iff _ _).mp bound)
      rcases keyed with rfl | rfl
      · simp [bare] at found
      · simp [marked] at found

theorem mem_names_of_get? {params : Parameters} {key : String} {value : Value}
    (found : params.get? key = some value) : key ∈ params.names :=
  (NameMap.contains_iff _ _).mp (Option.isSome_iff_exists.mpr ⟨value, found⟩)

/-- Every key binds one of the names. -/
def Within (names : List String) (params : Parameters) : Prop :=
  ∀ key ∈ params.names, ∃ name ∈ names, KeyOf name key

instance (names : List String) (params : Parameters) : Decidable (Within names params) :=
  inferInstanceAs (Decidable (∀ key ∈ params.names, ∃ name ∈ names, KeyOf name key))

theorem Within.binds_eq_false {names : List String} {params : Parameters}
    (known : params.Within names) (plain : ∀ name ∈ names, hasSigil name = false) {name : String}
    (namePlain : hasSigil name = false) (absent : name ∉ names) : params.binds name = false := by
  rw [binds_eq_false_iff]
  cases found : params.bound? name with
  | none => rfl
  | some pair =>
      obtain ⟨keyed, here⟩ := keyOf_of_bound? found
      obtain ⟨other, inside, again⟩ := known pair.1 (mem_names_of_get? here)
      have same := eq_of_keyOf namePlain (plain other inside) keyed again
      exact absurd (same ▸ inside) absent

/-- The name is bound to the value under one of its keys, and not under the other. -/
def BindsOnce (params : Parameters) (name : String) (value : Value) : Prop :=
  ∃ key, KeyOf name key ∧
    ∀ other, KeyOf name other → params.get? other = if other = key then some value else none

theorem BindsOnce.value?_eq {params : Parameters} {name : String} {value : Value}
    (once : params.BindsOnce name value) : params.value? name = some value := by
  obtain ⟨key, keyed, each⟩ := once
  rw [value?_eq_or, each name (Or.inl rfl), each (sigilKey name) (Or.inr rfl)]
  rcases keyed with rfl | rfl
  · rw [if_pos rfl, Option.some_or]
  · rw [if_pos rfl]
    split <;> rfl

theorem BindsOnce.eq_of_get? {params : Parameters} {name key : String} {value other : Value}
    (once : params.BindsOnce name value) (keyed : KeyOf name key)
    (found : params.get? key = some other) : other = value := by
  obtain ⟨own, -, each⟩ := once
  rw [each key keyed] at found
  split at found
  · exact (Option.some.inj found).symm
  · contradiction

end Parameters

end SealedColumns
