import SealedColumns.Proofs.Agreement
import SealedColumns.Proofs.OpenedCells

/-!
Rows in which a column name stands more than once, as when two tables are joined. A name
leads to the last of its columns. So a pass over the columns in order reveals the last cell
under each listed name, and leaves a cell before it as it came, which may be a ciphertext.
Whoever reads by name never meets that cell: in either shape a row reads the same, and it is
decrypted in the same way.
-/

namespace SealedColumns

open OrderedCells (Apart names values place?)

/-- What a pass makes of a cell that it comes to: a blank one stays, and of any other the
    plaintext of what it holds is left, without its padding. -/
def Cipher.Reveals (cipher : Cipher) (old new : Value) : Prop :=
  if old.isBlank then new = old
  else ∃ ciphertext plaintext, old.Holds ciphertext ∧ cipher.decrypt ciphertext = .ok plaintext
    ∧ new = .text (Text.withoutPadding plaintext)

/-! A pass over cells in order, place by place. -/

section Places
variable {row : Type} [Cells row] [OrderedCells row] {cipher : Cipher} {cells after : row}
  {columns : List String} {column : String} {calls : List CipherCall} {place : Nat} {old : Value}

theorem Cipher.Opens.reveals (apart : Apart cells)
    (opens : cipher.Opens cells (columns.filter (Cells.shows cells)) after calls)
    (listed : column ∈ columns) (led : place? cells column = some place)
    (held : (values cells)[place]? = some old) :
    ∃ new, (values after)[place]? = some new ∧ cipher.Reveals old new := by
  have found : Cells.cell? cells column = some old := by
    rw [OrderedCells.cell?_eq, led]
    exact held
  cases blank : old.isBlank with
  | true =>
      refine ⟨old, ?_, (if_pos blank).mpr rfl⟩
      rw [opens.kept place, held]
      -- Only the column itself leads to the place, and its cell is not shown.
      intro other member there
      obtain rfl := apart column other place led there
      obtain ⟨value, same, visible⟩ :=
        (Cells.shows_iff cells column).mp (List.mem_filter.mp member).2
      obtain rfl := Option.some.inj (found.symm.trans same)
      rw [blank] at visible
      contradiction
  | false =>
      have shows := (Cells.shows_iff cells column).mpr ⟨old, found, blank⟩
      obtain ⟨turn, here⟩ := List.mem_iff_getElem?.mp (List.mem_filter.mpr ⟨listed, shows⟩)
      obtain ⟨position, value, ciphertext, plaintext, there, stood, -, holds, -, answer, left⟩ :=
        opens.opened turn column here
      obtain rfl := Option.some.inj (led.symm.trans there)
      obtain rfl := Option.some.inj (held.symm.trans stood)
      refine ⟨_, left, ?_⟩
      rw [Cipher.Reveals, if_neg (by simp [blank])]
      exact ⟨ciphertext, plaintext, holds, answer, rfl⟩

theorem Cipher.Opens.keeps
    (opens : cipher.Opens cells (columns.filter (Cells.shows cells)) after calls)
    (elsewhere : ∀ column ∈ columns, place? cells column ≠ some place) :
    (values after)[place]? = (values cells)[place]? :=
  opens.kept place fun column member => elsewhere column (List.mem_filter.mp member).1

theorem OrderedCells.length_values_put (cells : row) (column : String) (value : Value) :
    (values (Cells.put cells column value)).length = (values cells).length := by
  rw [values_put]
  cases place? cells column with
  | none => rfl
  | some place => exact List.length_set

theorem OrderedCells.length_values_openCells (cipher : Option Cipher) (columns : List String)
    (cells : row) :
    (values (openCells cipher columns cells).row).length = (values cells).length := by
  let holds (after : row) : Prop := (values after).length = (values cells).length
  have kept : holds (openCells cipher columns cells).row := by
    refine openCells_keeps ?_ (show holds cells from rfl)
    intro before column _ value same
    exact (length_values_put before column value).trans same
  exact kept

end Places

/-! Rows with columns in order. -/

/-- A pass over a row is one over the row in its shape. -/
theorem openCells_columns (cipher : Option Cipher) (columns : List String) (row : Row) :
    openCells cipher columns (ShapedRow.columns row) =
      let pass := openCells cipher columns row
      ⟨.columns pass.row, pass.result, pass.trace⟩ := by
  induction columns generalizing row with
  | nil => rfl
  | cons first rest ih =>
      cases shows : Cells.shows row first with
      | false =>
          have hidden : Cells.shows (ShapedRow.columns row) first = false := shows
          rw [openCells_of_hidden rest shows, openCells_of_hidden rest hidden, ih]
      | true =>
          obtain ⟨value, found, visible⟩ := (Cells.shows_iff row first).mp shows
          have held : Cells.cell? (ShapedRow.columns row) first = some value := found
          rw [openCells_of_visible rest found visible, openCells_of_visible rest held visible]
          obtain ⟨answer, trace⟩ := openValue cipher first value
          cases answer with
          | error cause => rfl
          | ok plain =>
              have changed : Cells.put (ShapedRow.columns row) first plain =
                  .columns (Cells.put row first plain) := rfl
              simp only [changed, ih]

theorem Row.place?_ofNames_iff (names : List String) (values : List Value) (column : String)
    (position : Nat) :
    place? (Row.ofNames names values) column = some position ↔
      names[position]? = some column
        ∧ ∀ later : Nat, position < later → names[later]? ≠ some column := by
  rw [← lastPosition?_eq_some_iff, ← Header.position?_ofNames]
  rfl

theorem Cipher.Opens.reveals_last {cipher : Cipher} {names columns : List String}
    {values : List Value} {after : Row} {calls : List CipherCall}
    (opens : cipher.Opens (Row.ofNames names values)
      (columns.filter (Cells.shows (Row.ofNames names values))) after calls)
    (width : after.values.length = values.length) {position : Nat} {name : String} {value : Value}
    (found : after.cells[position]? = some (name, value)) :
    ∃ old, (Row.ofNames names values).cells[position]? = some (name, old)
      ∧ (name ∈ columns → (∀ later : Nat, position < later → names[later]? ≠ some name) →
        cipher.Reveals old value)
      ∧ (name ∉ columns ∨ (∃ later : Nat, position < later ∧ names[later]? = some name) →
        value = old) := by
  obtain ⟨bears, left⟩ := List.getElem?_zip_eq_some.mp found
  have named : after.header.names = names := opens.names_eq
  rw [named] at bears
  obtain ⟨inside, -⟩ := List.getElem?_eq_some_iff.mp left
  obtain ⟨old, held⟩ : ∃ old, values[position]? = some old :=
    ⟨values[position], List.getElem?_eq_getElem (width ▸ inside)⟩
  refine ⟨old, List.getElem?_zip_eq_some.mpr ⟨bears, held⟩, ?_, ?_⟩
  · intro listed last
    have led := (Row.place?_ofNames_iff names values name position).mpr ⟨bears, last⟩
    obtain ⟨new, here, reveals⟩ :=
      opens.reveals (Row.apart_ofNames names values) listed led held
    obtain rfl := Option.some.inj (left.symm.trans here)
    exact reveals
  · intro spared
    have kept : after.values[position]? = values[position]? := by
      apply opens.keeps
      intro column listed led
      obtain ⟨stands, last⟩ := (Row.place?_ofNames_iff names values column position).mp led
      obtain rfl := Option.some.inj (bears.symm.trans stands)
      rcases spared with unlisted | ⟨later, behind, again⟩
      · exact unlisted listed
      · exact last later behind again
    exact Option.some.inj (left.symm.trans (kept.trans held))

/-- A pass over a row with its columns in order goes through if the last cell under each listed
    name is blank or can be decrypted. Then it reveals these cells, and keeps every other, those
    included that stand before them under the same names. -/
theorem openCells_reveals_last_cells {columns : List String} (distinct : columns.Nodup)
    (cipher : Cipher) (names : List String) (values : List Value) :
    let row := Row.ofNames names values
    let pass := openCells (some cipher) columns (ShapedRow.columns row)
    (pass.result = .ok () ↔ cipher.Decrypts columns row)
    ∧ (pass.result = .ok () → ∃ after : Row, pass.row = .columns after
      ∧ after.cells.length = row.cells.length
      ∧ ∀ position name value, after.cells[position]? = some (name, value) →
        ∃ old, row.cells[position]? = some (name, old)
          ∧ (name ∈ columns → (∀ later : Nat, position < later → names[later]? ≠ some name) →
            cipher.Reveals old value)
          ∧ (name ∉ columns ∨ (∃ later : Nat, position < later ∧ names[later]? = some name) →
            value = old)) := by
  intro row pass
  have apart : Apart row := Row.apart_ofNames names values
  let plain := openCells (some cipher) columns row
  have same : pass = ⟨.columns plain.row, plain.result, plain.trace⟩ := openCells_columns _ _ row
  rw [same]
  refine ⟨openCells_ok_iff_decrypts OrderedCells.laws apart distinct, fun done => ?_⟩
  have opens : cipher.Opens row (columns.filter (Cells.shows row)) plain.row
      plain.trace.cipherCalls := by
    have passes : cipher.Passes row columns plain := passes_openCells apart distinct
    cases passes with
    | through _ opens => exact opens
    | stopped _ _ _ failed =>
        rw [done] at failed
        contradiction
  have width : plain.row.values.length = values.length :=
    OrderedCells.length_values_openCells (some cipher) columns row
  have named : plain.row.header.names = names := opens.names_eq
  refine ⟨plain.row, rfl, ?_, fun position name value => opens.reveals_last width⟩
  rw [Row.cells, named, List.length_zip, width]
  exact List.length_zip.symm

/-- A ward joined with a guardian, of whom there is an `ssn` each. -/
def custody (ward guardian : Value) : Row :=
  .ofNames ["ssn", "name", "ssn"] [ward, .text "Ada", guardian]

theorem guardian_revealed :
    let pass := openCells (some (Sample.tag none)) ["ssn"]
      (ShapedRow.columns (custody (.text "enc:1") (.blob (Text.bytes "enc:2"))))
    pass.result = .ok () ∧ ∃ after : Row, pass.row = .columns after
      ∧ ∀ value, after.cells[2]? = some ("ssn", value) →
        (Sample.tag none).Reveals (.blob (Text.bytes "enc:2")) value := by
  intro pass
  obtain ⟨-, each⟩ := openCells_reveals_last_cells (by decide : ["ssn"].Nodup)
    (Sample.tag none) ["ssn", "name", "ssn"]
    [.text "enc:1", .text "Ada", .blob (Text.bytes "enc:2")]
  obtain ⟨after, left, -, cells⟩ := each rfl
  refine ⟨rfl, after, left, fun value found => ?_⟩
  obtain ⟨old, stood, reveals, -⟩ := cells 2 "ssn" value found
  obtain rfl : Value.blob (Text.bytes "enc:2") = old := congrArg Prod.snd (Option.some.inj stood)
  apply reveals List.mem_cons_self
  intro later behind
  rw [List.getElem?_eq_none behind]
  nofun

/-- The ciphertext of the ward is left in a row that was decrypted. -/
theorem ward_not_revealed :
    let pass := openCells (some (Sample.tag none)) ["ssn"]
      (ShapedRow.columns (custody (.text "enc:1") (.text "enc:2")))
    pass.result = .ok ()
      ∧ pass.row = .columns (custody (.text "enc:1") (.text "2"))
      ∧ ¬ (Sample.tag none).Reveals (.text "enc:1") (.text "enc:1") := by
  refine ⟨rfl, rfl, ?_⟩
  rintro ⟨ciphertext, plaintext, held, answer, left⟩
  obtain rfl : "enc:1" = ciphertext := by
    rcases held with same | same
    · exact Value.text.inj same
    · contradiction
  have opened : (Sample.tag none).decrypt "enc:1" = .ok "1\t" := rfl
  obtain rfl := Except.ok.inj (opened.symm.trans answer)
  have trimmed : Text.withoutPadding "1\t" = "1" := rfl
  rw [trimmed] at left
  exact absurd (Value.text.inj left) (by decide)

/-! Rows in either shape. -/

/-- A row that has a value for each of its columns reads the same in every shape, also after a pass
    over it, however often a column is listed: the pass does the same, to the calls and the
    events, whether it goes through or fails. -/
theorem shapes_read_alike {names : List String} {values : List Value}
    (wide : names.length ≤ values.length) (columns : List String) (cipher : Option Cipher)
    (kind : RowKind) :
    let row := Row.ofNames names values
    let plain := openCells cipher columns row
    let shaped := openCells cipher columns (ShapedRow.ofRow kind row)
    shaped.result = plain.result ∧ shaped.trace = plain.trace
      ∧ ∀ name, shaped.row.get? name = plain.row.get? name := by
  intro row plain shaped
  have alike : Agree (fun _ => True) (ShapedRow.ofRow kind row) row :=
    fun name _ => ShapedRow.get?_ofRow wide kind name
  obtain ⟨results, traces, after⟩ := openCells_agree cipher ShapedRow.laws
    Row.laws (ShapedRow.unaliased_ofRow kind names values) (Header.unaliased_ofNames names)
    (fun _ _ => trivial) alike
  exact ⟨results, traces, fun name => after name trivial⟩

/-- The plaintext that the pass comes back to is refused, and read by name all the same. -/
theorem custody_reads_alike :
    let row := custody (.text "enc:1") (.text "enc:2")
    let shaped := openCells (some (Sample.tag none)) ["ssn", "ssn"] (ShapedRow.ofRow .fields row)
    shaped.result = .error (.decryption "ssn" (.malformed (.refused "2")))
      ∧ shaped.trace.cipherCalls = [.decrypt "enc:2", .decrypt "2"]
      ∧ shaped.row.get? "ssn" = some (.text "2") := by
  intro row shaped
  obtain ⟨results, traces, after⟩ := @shapes_read_alike ["ssn", "name", "ssn"]
    [.text "enc:1", .text "Ada", .text "enc:2"] (by decide) ["ssn", "ssn"]
    (some (Sample.tag none)) .fields
  exact ⟨results, congrArg Trace.cipherCalls traces, after "ssn"⟩

end SealedColumns
