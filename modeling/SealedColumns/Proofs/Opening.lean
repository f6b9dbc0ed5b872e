import SealedColumns.Opening
import SealedColumns.Proofs.Cells

/-!
What an opening pass does to the cell under each column. For rows in which no two
names lead to one cell, a pass leaves alone what is not listed, takes each listed cell
that is not blank to the plaintext of what it held, and is the same as if columns with
blank cells were not listed. A pass over two lists goes over one after the other.
-/

namespace SealedColumns

section Pass
variable {row : Type} [Cells row] {valid : row → Prop} {cipher : Option Cipher}
  {columns : List String} {cells : row} {column : String}

/-- What changes of listed cells keep, a pass keeps. -/
theorem openCells_keeps {holds : row → Prop}
    (keeps : ∀ cells, ∀ column ∈ columns, ∀ value, holds cells →
      holds (Cells.put cells column value)) (start : holds cells) :
    holds (openCells cipher columns cells).row := by
  fun_induction openCells cipher columns cells with
  | case1 | case4 | case5 | case6 => exact start
  | case2 _ _ _ _ _ ih | case3 _ _ _ _ _ _ _ ih =>
      exact ih (fun cells column member => keeps cells column (by simp [member])) start
  | case7 first rest cells value found visible cipher ciphertext read plaintext opened later ih =>
      exact ih (fun cells column member => keeps cells column (by simp [member]))
        (keeps cells first List.mem_cons_self _ start)

theorem cell?_openCells_of_not_mem (laws : Cells.Laws valid) (coherent : valid cells)
    (absent : column ∉ columns) :
    Cells.cell? (openCells cipher columns cells).row column = Cells.cell? cells column := by
  let holds (after : row) : Prop :=
    valid after ∧ Cells.cell? after column = Cells.cell? cells column
  have kept : holds (openCells cipher columns cells).row := by
    refine openCells_keeps ?_ (show holds cells from ⟨coherent, rfl⟩)
    rintro after other member value ⟨sound, same⟩
    have differ : column ≠ other := by
      rintro rfl
      exact absent member
    exact ⟨laws.valid_put other value sound, (laws.cell?_put_other value sound differ).trans same⟩
  exact kept.2

/-- What a pass that goes through leaves in a listed cell that is not blank. -/
theorem cell?_openCells (laws : Cells.Laws valid) {value : Value} (coherent : valid cells)
    (distinct : columns.Nodup) (member : column ∈ columns)
    (found : Cells.cell? cells column = some value) (visible : value.isBlank = false)
    (done : (openCells cipher columns cells).result = .ok ()) :
    ∃ key ciphertext plaintext, cipher = some key ∧ value.ciphertext = .ok ciphertext
      ∧ key.decrypt ciphertext = .ok plaintext
      ∧ Cells.cell? (openCells cipher columns cells).row column =
          some (.text (Text.withoutPadding plaintext)) := by
  fun_induction openCells cipher columns cells with
  | case1 => contradiction
  | case2 cipher first rest cells absent ih =>
      rcases List.mem_cons.mp member with rfl | later
      · rw [absent] at found
        contradiction
      · exact ih coherent (List.nodup_cons.mp distinct).2 later found done
  | case3 cipher first rest cells old held blank ih =>
      rcases List.mem_cons.mp member with rfl | later
      · obtain rfl := Option.some.inj (held.symm.trans found)
        rw [blank] at visible
        contradiction
      · exact ih coherent (List.nodup_cons.mp distinct).2 later found done
  | case4 | case5 | case6 => contradiction
  | case7 first rest cells old held shown cipher ciphertext read plaintext opened later ih =>
      obtain ⟨absent, tail⟩ := List.nodup_cons.mp distinct
      have coherentLater := laws.valid_put first (.text (Text.withoutPadding plaintext)) coherent
      rcases List.mem_cons.mp member with rfl | inRest
      · obtain rfl := Option.some.inj (held.symm.trans found)
        refine ⟨cipher, ciphertext, plaintext, rfl, read, opened, ?_⟩
        -- The rest of the pass does not come back to this column.
        exact (cell?_openCells_of_not_mem laws coherentLater absent).trans
          (laws.cell?_put_same _ coherent found)
      · have differ : column ≠ first := by
          rintro rfl
          exact absent inRest
        have kept := laws.cell?_put_other (.text (Text.withoutPadding plaintext)) coherent differ
        exact ih coherentLater tail inRest (kept.trans found) done

/-- A column with a blank cell need not be listed. -/
theorem openCells_filter (laws : Cells.Laws valid) (coherent : valid cells)
    (blank : ∀ value, Cells.cell? cells column = some value → value.isBlank = true) :
    openCells cipher (columns.filter (· != column)) cells = openCells cipher columns cells := by
  induction columns generalizing cells with
  | nil => rfl
  | cons first rest ih =>
      by_cases same : first = column
      · subst same
        rw [List.filter_cons_of_neg (by simp), ih coherent blank, openCells]
        split
        · rfl
        · next value found => rw [if_pos (blank value found)]
      · rw [List.filter_cons_of_pos (by simpa using same), openCells, openCells]
        split
        · exact ih coherent blank
        · split
          · exact ih coherent blank
          · split
            · rfl
            · split
              · rfl
              · split
                · rfl
                · next plaintext _ =>
                  have kept (text : Value) := laws.cell?_put_other text coherent (Ne.symm same)
                  rw [ih (laws.valid_put first _ coherent) (by rwa [kept])]

theorem cell?_openCells_of_blank (laws : Cells.Laws valid) (coherent : valid cells)
    (blank : ∀ value, Cells.cell? cells column = some value → value.isBlank = true) :
    Cells.cell? (openCells cipher columns cells).row column = Cells.cell? cells column := by
  rw [← openCells_filter laws coherent blank]
  exact cell?_openCells_of_not_mem laws coherent (by simp)

end Pass

/-- Under every listed column the row holds nothing, a blank cell, or a cell that the
    cipher decrypts. -/
def Cipher.Decrypts {row : Type} [Cells row] (cipher : Cipher) (columns : List String)
    (cells : row) : Prop :=
  ∀ column ∈ columns, ∀ value, Cells.cell? cells column = some value → value.isBlank = false →
    ∃ ciphertext plaintext, value.ciphertext = .ok ciphertext
      ∧ cipher.decrypt ciphertext = .ok plaintext

/-- What becomes of a cell that is not blank, and what that does. -/
def openValue (cipher : Option Cipher) (column : String) (value : Value) :
    Except Error Value × Trace :=
  match cipher with
  | none => (.error (.configuration (.noCipher column)), [])
  | some cipher =>
      match value.ciphertext with
      | .error fault => (.error (.decryption column (.malformed fault)), [])
      | .ok ciphertext =>
          match cipher.decrypt ciphertext with
          | .error cause => (.error (.decryption column cause), [.cipher (.decrypt ciphertext)])
          | .ok plaintext =>
              (.ok (.text (Text.withoutPadding plaintext)),
                [.cipher (.decrypt ciphertext), .event (.decrypted column)])

section Step
variable {row : Type} [Cells row] {cipher : Option Cipher} {column : String} {cells : row}
  (rest : List String)

theorem openCells_of_absent (absent : Cells.cell? cells column = none) :
    openCells cipher (column :: rest) cells = openCells cipher rest cells := by
  rw [openCells, absent]

theorem openCells_of_blank {value : Value} (found : Cells.cell? cells column = some value)
    (blank : value.isBlank = true) :
    openCells cipher (column :: rest) cells = openCells cipher rest cells := by
  rw [openCells, found]
  exact if_pos blank

theorem openCells_of_hidden (hidden : Cells.shows cells column = false) :
    openCells cipher (column :: rest) cells = openCells cipher rest cells := by
  cases found : Cells.cell? cells column with
  | none => exact openCells_of_absent rest found
  | some value =>
      apply openCells_of_blank rest found
      simpa [Cells.shows, found] using hidden

theorem openCells_of_visible {value : Value} (found : Cells.cell? cells column = some value)
    (visible : value.isBlank = false) :
    openCells cipher (column :: rest) cells =
      match openValue cipher column value with
      | (.error cause, trace) => ⟨cells, .error cause, trace⟩
      | (.ok plain, trace) =>
          let later := openCells cipher rest (Cells.put cells column plain)
          { later with trace := trace ++ later.trace } := by
  rw [openCells, found]
  dsimp only
  rw [if_neg (by simp [visible])]
  unfold openValue
  cases cipher with
  | none => rfl
  | some cipher =>
      cases read : value.ciphertext with
      | error fault => rfl
      | ok ciphertext => cases opened : cipher.decrypt ciphertext <;> simp [opened]

end Step

/-- No cell is visited twice, so what the cipher makes of a plaintext does not matter. -/
theorem openCells_ok_of_decrypts {row : Type} [Cells row] {valid : row → Prop} {cipher : Cipher}
    {columns : List String} {cells : row} (laws : Cells.Laws valid) (coherent : valid cells)
    (distinct : columns.Nodup) (decrypts : cipher.Decrypts columns cells) :
    (openCells (some cipher) columns cells).result = .ok () := by
  induction columns generalizing cells with
  | nil => rfl
  | cons first rest ih =>
      obtain ⟨absent, tail⟩ := List.nodup_cons.mp distinct
      have later : cipher.Decrypts rest cells :=
        fun column member => decrypts column (List.mem_cons_of_mem first member)
      cases found : Cells.cell? cells first with
      | none =>
          rw [openCells_of_absent rest found]
          exact ih coherent tail later
      | some value =>
          cases blank : value.isBlank with
          | true =>
              rw [openCells_of_blank rest found blank]
              exact ih coherent tail later
          | false =>
              obtain ⟨ciphertext, plaintext, read, opened⟩ :=
                decrypts first List.mem_cons_self value found blank
              rw [openCells_of_visible rest found blank]
              simp only [openValue, read, opened]
              apply ih (laws.valid_put first _ coherent) tail
              intro column member other held
              have differ : column ≠ first := by
                rintro rfl
                exact absent member
              rw [laws.cell?_put_other _ coherent differ] at held
              exact later column member other held

theorem openCells_ok_iff_decrypts {row : Type} [Cells row] {valid : row → Prop} {cipher : Cipher}
    {columns : List String} {cells : row} (laws : Cells.Laws valid) (coherent : valid cells)
    (distinct : columns.Nodup) :
    (openCells (some cipher) columns cells).result = .ok () ↔ cipher.Decrypts columns cells := by
  constructor
  · intro done column member value found visible
    obtain ⟨key, ciphertext, plaintext, chosen, read, answer, -⟩ :=
      cell?_openCells laws coherent distinct member found visible done
    obtain rfl := Option.some.inj chosen
    exact ⟨ciphertext, plaintext, read, answer⟩
  · exact openCells_ok_of_decrypts laws coherent distinct

/-! Passes one after the other. -/

/-- Goes on with the row that a pass left, if it went through. -/
def Opening.andThen {row : Type} (pass : Opening row) (next : row → Opening row) : Opening row :=
  match pass.result with
  | .error _ => pass
  | .ok () => { next pass.row with trace := pass.trace ++ (next pass.row).trace }

section Sequence
variable {row : Type} {pass : Opening row} {next : row → Opening row}

theorem Opening.andThen_of_error {cause : Error} (failed : pass.result = .error cause) :
    pass.andThen next = pass := by
  rw [andThen, failed]

theorem Opening.andThen_of_ok (done : pass.result = .ok ()) :
    pass.andThen next =
      { next pass.row with trace := pass.trace ++ (next pass.row).trace } := by
  rw [andThen, done]

theorem Opening.andThen_behind (earlier : Trace) (pass : Opening row) :
    { pass with trace := earlier ++ pass.trace }.andThen next =
      { pass.andThen next with trace := earlier ++ (pass.andThen next).trace } := by
  obtain ⟨row, result, trace⟩ := pass
  cases result with
  | error cause => rfl
  | ok => simp only [andThen, List.append_assoc]

variable [Cells row] {cipher : Option Cipher}

theorem openCells_append (before after : List String) (cells : row) :
    openCells cipher (before ++ after) cells =
      (openCells cipher before cells).andThen (openCells cipher after) := by
  induction before generalizing cells with
  | nil => rfl
  | cons first rest ih =>
      rw [List.cons_append]
      cases shows : Cells.shows cells first with
      | false => rw [openCells_of_hidden _ shows, openCells_of_hidden _ shows, ih]
      | true =>
          obtain ⟨value, found, visible⟩ := (Cells.shows_iff cells first).mp shows
          rw [openCells_of_visible _ found visible, openCells_of_visible _ found visible]
          obtain ⟨answer, trace⟩ := openValue cipher first value
          cases answer with
          | error cause => rfl
          | ok plain =>
              dsimp only
              rw [ih, Opening.andThen_behind]

theorem openCells_cons (first : String) (rest : List String) (cells : row) :
    openCells cipher (first :: rest) cells =
      (openCells cipher [first] cells).andThen (openCells cipher rest) :=
  openCells_append [first] rest cells

end Sequence

/-! Sets of rows. -/

section Sets
variable {row : Type} [Cells row] {cipher : Option Cipher} {columns others : List String}

/-- The row that a pass leaves behind. -/
def opened (cipher : Option Cipher) (columns : List String) (cells : row) : row :=
  (openCells cipher columns cells).row

theorem openRows_ok_iff (rows : List row) :
    (openRows cipher columns rows).result = .ok () ↔
      ∀ cells ∈ rows, (openCells cipher columns cells).result = .ok () := by
  induction rows with
  | nil => simp [openRows]
  | cons first rest ih =>
      rw [List.forall_mem_cons, ← ih, openRows]
      cases done : (openCells cipher columns first).result with
      | error cause => simp
      | ok => simp

theorem openRows_row {rows : List row} (done : (openRows cipher columns rows).result = .ok ()) :
    (openRows cipher columns rows).row = rows.map (opened cipher columns) := by
  induction rows with
  | nil => rfl
  | cons first rest ih =>
      have each := (openRows_ok_iff (first :: rest)).mp done
      rw [openRows, each first List.mem_cons_self, List.map_cons, ← ih]
      · rfl
      · exact (openRows_ok_iff rest).mpr fun cells member => each cells (by simp [member])

theorem openGroups_ok_iff (groups : List KeyedRows) :
    (openGroups cipher columns groups).result = .ok () ↔
      ∀ group ∈ groups, ∀ cells ∈ group.rows, (openCells cipher columns cells).result = .ok () := by
  induction groups with
  | nil => simp [openGroups]
  | cons first rest ih =>
      rw [List.forall_mem_cons, ← ih, ← openRows_ok_iff, openGroups]
      cases done : (openRows cipher columns first.rows).result with
      | error cause => simp
      | ok => simp

theorem openGroups_row {groups : List KeyedRows}
    (done : (openGroups cipher columns groups).result = .ok ()) :
    (openGroups cipher columns groups).row =
      groups.map fun group => { group with rows := group.rows.map (opened cipher columns) } := by
  induction groups with
  | nil => rfl
  | cons first rest ih =>
      have each := (openGroups_ok_iff (first :: rest)).mp done
      have here := (openRows_ok_iff first.rows).mpr (each first List.mem_cons_self)
      rw [openGroups, here, List.map_cons, ← ih, openRows_row here]
      exact (openGroups_ok_iff rest).mpr fun group member => each group (by simp [member])

theorem openRows_congr {rows : List row}
    (same : ∀ cells ∈ rows, openCells cipher columns cells = openCells cipher others cells) :
    openRows cipher columns rows = openRows cipher others rows := by
  induction rows with
  | nil => rfl
  | cons first rest ih =>
      obtain ⟨here, later⟩ := List.forall_mem_cons.mp same
      rw [openRows, openRows, here, ih later]

theorem openGroups_congr {groups : List KeyedRows}
    (same : ∀ group ∈ groups, ∀ cells ∈ group.rows,
      openCells cipher columns cells = openCells cipher others cells) :
    openGroups cipher columns groups = openGroups cipher others groups := by
  induction groups with
  | nil => rfl
  | cons first rest ih =>
      obtain ⟨here, later⟩ := List.forall_mem_cons.mp same
      rw [openGroups, openGroups, openRows_congr here, ih later]

theorem openRowSet_congr {set : RowSet}
    (same : ∀ cells ∈ set.rows, openCells cipher columns cells = openCells cipher others cells) :
    openRowSet cipher columns set = openRowSet cipher others set := by
  cases set with
  | flat rows =>
      have passes : openRows cipher columns rows = openRows cipher others rows :=
        openRows_congr same
      rw [openRowSet, openRowSet, passes]
  | grouped groups =>
      rw [openRowSet, openRowSet, openGroups_congr]
      intro group present cells member
      exact same cells (List.mem_flatMap.mpr ⟨group, present, member⟩)

end Sets

end SealedColumns
