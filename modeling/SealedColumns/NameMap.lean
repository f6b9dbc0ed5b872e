/-!
Finite maps from names to values, kept as a list strictly ordered by name. The
order is that of the code points, which is also that of the UTF-8 bytes. Two
maps with the same lookups are equal, and `get?` after `insert` or `erase`
follows the usual equations.
-/

namespace SealedColumns

/-- The value of the first entry under the name. -/
def firstNamed {α : Type} (name : String) : List (String × α) → Option α
  | [] => none
  | (other, value) :: rest => if other = name then some value else firstNamed name rest

structure NameMap (α : Type) where
  entries : List (String × α)
  ordered : entries.Pairwise (fun left right => left.1 < right.1)

namespace NameMap

variable {α β : Type}

def empty : NameMap α := ⟨[], List.Pairwise.nil⟩

instance : Inhabited (NameMap α) := ⟨empty⟩

instance [DecidableEq α] : DecidableEq (NameMap α) := fun left right =>
  if same : left.entries = right.entries then
    isTrue (by cases left; cases right; cases same; rfl)
  else isFalse (fun equal => same (congrArg entries equal))

def get? (map : NameMap α) (name : String) : Option α :=
  firstNamed name map.entries

def contains (map : NameMap α) (name : String) : Bool :=
  (map.get? name).isSome

def size (map : NameMap α) : Nat := map.entries.length

def isEmpty (map : NameMap α) : Bool := map.entries.isEmpty

def names (map : NameMap α) : List String := map.entries.map (·.1)

def insertEntry (name : String) (value : α) :
    List (String × α) → List (String × α)
  | [] => [(name, value)]
  | (other, kept) :: rest =>
      if name < other then (name, value) :: (other, kept) :: rest
      else if other < name then (other, kept) :: insertEntry name value rest
      else (name, value) :: rest

theorem mem_insertEntry {name : String} {value : α} {entry : String × α}
    {entries : List (String × α)} (member : entry ∈ insertEntry name value entries) :
    entry = (name, value) ∨ entry ∈ entries := by
  induction entries with
  | nil => simpa [insertEntry] using member
  | cons first rest ih =>
      unfold insertEntry at member
      split at member
      · simpa using member
      · split at member
        · rcases List.mem_cons.mp member with same | later
          · simp [same]
          · rcases ih later with same | old
            · exact Or.inl same
            · exact Or.inr (List.mem_cons_of_mem _ old)
        · rcases List.mem_cons.mp member with same | later
          · exact Or.inl same
          · exact Or.inr (List.mem_cons_of_mem _ later)

theorem eq_of_not_lt {left right : String} (below : ¬ left < right)
    (above : ¬ right < left) : left = right :=
  String.le_antisymm (String.not_lt.mp above) (String.not_lt.mp below)

theorem ordered_insertEntry (name : String) (value : α) {entries : List (String × α)}
    (ordered : entries.Pairwise (fun left right => left.1 < right.1)) :
    (insertEntry name value entries).Pairwise
      (fun left right => left.1 < right.1) := by
  induction entries with
  | nil => simp [insertEntry]
  | cons first rest ih =>
      obtain ⟨least, tail⟩ := List.pairwise_cons.mp ordered
      unfold insertEntry
      split
      · next before =>
        refine List.pairwise_cons.mpr ⟨?_, ordered⟩
        intro entry member
        rcases List.mem_cons.mp member with same | later
        · exact same ▸ before
        · exact String.lt_trans before (least entry later)
      · split
        · next after =>
          refine List.pairwise_cons.mpr ⟨?_, ih tail⟩
          intro entry member
          rcases mem_insertEntry member with same | old
          · exact same ▸ after
          · exact least entry old
        · next before after =>
          have same : name = first.1 := eq_of_not_lt before after
          refine List.pairwise_cons.mpr ⟨?_, tail⟩
          intro entry member
          exact same ▸ least entry member

/-- Binds the name to the value, replacing what it was bound to. -/
def insert (map : NameMap α) (name : String) (value : α) : NameMap α :=
  ⟨insertEntry name value map.entries, ordered_insertEntry name value map.ordered⟩

def erase (map : NameMap α) (name : String) : NameMap α :=
  ⟨map.entries.filter (fun entry => entry.1 != name), map.ordered.filter _⟩

/-- Of two entries with one name the later one counts. -/
def ofList (entries : List (String × α)) : NameMap α :=
  entries.foldl (fun map entry => map.insert entry.1 entry.2) empty

@[simp] theorem get?_empty (name : String) : (empty : NameMap α).get? name = none := rfl

theorem firstNamed_insertEntry (name other : String) (value : α)
    (entries : List (String × α)) :
    firstNamed other (insertEntry name value entries) =
      if other = name then some value else firstNamed other entries := by
  induction entries with
  | nil => simp [insertEntry, firstNamed, eq_comm]
  | cons first rest ih =>
      unfold insertEntry
      split
      · simp [firstNamed, eq_comm]
      · split
        · next after =>
          have apart : first.1 ≠ name := fun same => String.lt_irrefl name (same ▸ after)
          grind [firstNamed]
        · next before after =>
          have same : name = first.1 := eq_of_not_lt before after
          grind [firstNamed]

@[simp] theorem get?_insert (map : NameMap α) (name other : String) (value : α) :
    (map.insert name value).get? other =
      if other = name then some value else map.get? other :=
  firstNamed_insertEntry name other value map.entries

theorem firstNamed_filter_ne (name other : String) (entries : List (String × α)) :
    firstNamed other (entries.filter (fun entry => entry.1 != name)) =
      if other = name then none else firstNamed other entries := by
  induction entries with
  | nil => simp [firstNamed]
  | cons first rest ih => grind [firstNamed]

@[simp] theorem get?_erase (map : NameMap α) (name other : String) :
    (map.erase name).get? other = if other = name then none else map.get? other :=
  firstNamed_filter_ne name other map.entries

theorem mem_of_firstNamed {name : String} {value : α}
    {entries : List (String × α)} (found : firstNamed name entries = some value) :
    (name, value) ∈ entries := by
  induction entries with
  | nil => simp [firstNamed] at found
  | cons first rest ih => grind [firstNamed]

theorem firstNamed_of_mem {name : String} {value : α}
    {entries : List (String × α)}
    (ordered : entries.Pairwise (fun left right => left.1 < right.1))
    (member : (name, value) ∈ entries) : firstNamed name entries = some value := by
  induction entries with
  | nil => simp at member
  | cons first rest ih =>
      obtain ⟨least, tail⟩ := List.pairwise_cons.mp ordered
      rcases List.mem_cons.mp member with same | later
      · simp [firstNamed, ← same]
      · have apart : first.1 ≠ name := fun same =>
          String.lt_irrefl name (by simpa [same] using least _ later)
        simp [firstNamed, apart, ih tail later]

theorem get?_eq_some_iff (map : NameMap α) (name : String) (value : α) :
    map.get? name = some value ↔ (name, value) ∈ map.entries :=
  ⟨mem_of_firstNamed, firstNamed_of_mem map.ordered⟩

theorem contains_iff (map : NameMap α) (name : String) :
    map.contains name = true ↔ name ∈ map.names := by
  simp only [contains, names, Option.isSome_iff_exists, get?_eq_some_iff, List.mem_map]
  exact ⟨fun ⟨value, member⟩ => ⟨(name, value), member, rfl⟩,
    fun ⟨entry, member, same⟩ => ⟨entry.2, same ▸ member⟩⟩

theorem nodup_names (map : NameMap α) : map.names.Nodup :=
  List.pairwise_map.mpr
    (map.ordered.imp (fun {left right} (below : left.1 < right.1) (same : left.1 = right.1) =>
      String.lt_irrefl right.1 (same ▸ below)))

theorem entries_eq_of_mem_iff {left right : List (String × α)}
    (leftOrdered : left.Pairwise (fun a b => a.1 < b.1))
    (rightOrdered : right.Pairwise (fun a b => a.1 < b.1))
    (same : ∀ entry, entry ∈ left ↔ entry ∈ right) : left = right := by
  induction left generalizing right with
  | nil =>
      cases right with
      | nil => rfl
      | cons first rest => exact absurd ((same first).mpr (by simp)) (by simp)
  | cons first rest ih =>
      cases right with
      | nil => exact absurd ((same first).mp (by simp)) (by simp)
      | cons other more =>
          obtain ⟨least, tail⟩ := List.pairwise_cons.mp leftOrdered
          obtain ⟨lowest, others⟩ := List.pairwise_cons.mp rightOrdered
          have heads : first = other := by
            rcases List.mem_cons.mp ((same first).mp (by simp)) with equal | later
            · exact equal
            · rcases List.mem_cons.mp ((same other).mpr (by simp)) with equal | below
              · exact equal.symm
              · exact absurd (lowest first later) (String.lt_asymm (least other below))
          subst heads
          congr 1
          refine ih tail others (fun entry => ?_)
          constructor
          · intro member
            rcases List.mem_cons.mp ((same entry).mp (List.mem_cons_of_mem _ member)) with equal | later
            · exact absurd (equal ▸ least entry member) (String.lt_irrefl _)
            · exact later
          · intro member
            rcases List.mem_cons.mp ((same entry).mpr (List.mem_cons_of_mem _ member)) with equal | later
            · exact absurd (equal ▸ lowest entry member) (String.lt_irrefl _)
            · exact later

/-- Lookups determine the map. -/
theorem ext_get? {left right : NameMap α}
    (same : ∀ name, left.get? name = right.get? name) : left = right := by
  cases left with
  | mk leftEntries leftOrdered =>
  cases right with
  | mk rightEntries rightOrdered =>
      have equal : leftEntries = rightEntries :=
        entries_eq_of_mem_iff leftOrdered rightOrdered (fun entry => by
          have here := get?_eq_some_iff ⟨leftEntries, leftOrdered⟩ entry.1 entry.2
          rw [same entry.1, get?_eq_some_iff] at here
          exact here.symm)
      subst equal
      rfl

end NameMap

end SealedColumns
