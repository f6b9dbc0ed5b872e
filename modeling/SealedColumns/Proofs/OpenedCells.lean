import SealedColumns.Proofs.Opening
import SealedColumns.Sample.Ciphers

/-!
Which cells an opening pass replaces, and by what. If no two names lead to one cell and no
column is listed twice, each listed cell that is not blank is decrypted in a call of its
own, in the order of the list, and its plaintext takes its place. A pass that fails did this
with the columns before the one it failed at, and nothing to that cell or any other. Without
a cipher a pass changes nothing and fails at the first listed cell that is not blank.
-/

namespace SealedColumns

open OrderedCells (Apart)

theorem Trace.cipherCalls_append (before after : Trace) :
    cipherCalls (before ++ after) = before.cipherCalls ++ after.cipherCalls :=
  List.filterMap_append

/-- The cell is the text, or its bytes. -/
def Value.Holds (value : Value) (text : String) : Prop :=
  value = .text text ∨ value = .blob (Text.bytes text)

theorem Value.ciphertext_eq_ok_iff (value : Value) (text : String) :
    value.ciphertext = .ok text ↔ value.Holds text := by
  cases value with
  | text s => simp [ciphertext, Holds]
  | blob data =>
      have read : (blob data).Holds text ↔ Text.decode? data = some text := by
        simp [Holds, Text.decode?_eq_some_iff]
      rw [read, ciphertext, Text.decode]
      cases Text.decode? data with
      | none => exact iff_of_false nofun nofun
      | some form =>
          constructor
          · exact fun same => congrArg some (Except.ok.inj same)
          · exact fun same => congrArg Except.ok (Option.some.inj same)
  | _ => simp [ciphertext, Holds]

namespace Cipher

section Rows
variable {row : Type} [Cells row] [OrderedCells row] {cipher : Cipher} {cells after : row}
  {columns : List String} {column : String} {calls : List CipherCall}

open OrderedCells (names values place?)

/-- The cells under the columns are replaced, in this order, by what the cipher made of the
    texts they held, without its padding, in as many calls. Nothing else changes. -/
structure Opens (cipher : Cipher) (cells : row) (columns : List String) (after : row)
    (calls : List CipherCall) : Prop where
  length_calls : calls.length = columns.length
  opened : ∀ (turn : Nat) column, columns[turn]? = some column →
    ∃ place value ciphertext plaintext,
      place? cells column = some place ∧ (values cells)[place]? = some value
        ∧ value.isBlank = false ∧ value.Holds ciphertext
        ∧ calls[turn]? = some (CipherCall.decrypt ciphertext)
        ∧ cipher.decrypt ciphertext = .ok plaintext
        ∧ (values after)[place]? = some (.text (Text.withoutPadding plaintext))
  kept : ∀ place : Nat, (∀ column ∈ columns, place? cells column ≠ some place) →
    (values after)[place]? = (values cells)[place]?
  names_eq : names after = names cells
  place?_eq : ∀ name, place? after name = place? cells name

/-- Why a pass fails at a cell under the column, and the call it made there, if any. -/
inductive Rejects (cipher : Cipher) (column : String) (value : Value) :
    Error → List CipherCall → Prop where
  | unread {fault : CiphertextFault} (read : value.ciphertext = .error fault)
      (notText : ∀ text, ¬ value.Holds text) :
      Rejects cipher column value (.decryption column (.malformed fault)) []
  | failed {ciphertext : String} {fault : CipherFault} (held : value.Holds ciphertext)
      (answer : cipher.decrypt ciphertext = .error fault) :
      Rejects cipher column value (.decryption column fault) [.decrypt ciphertext]

theorem opens_nil (cells : row) : cipher.Opens cells [] cells [] where
  length_calls := rfl
  opened := by
    intro turn column found
    contradiction
  kept := fun _ _ => rfl
  names_eq := rfl
  place?_eq := fun _ => rfl

theorem Opens.cons {value : Value} {ciphertext plaintext : String} (apart : Apart cells)
    (fresh : column ∉ columns) (found : Cells.cell? cells column = some value)
    (visible : value.isBlank = false) (held : value.Holds ciphertext)
    (answer : cipher.decrypt ciphertext = .ok plaintext)
    (rest : cipher.Opens (Cells.put cells column (.text (Text.withoutPadding plaintext))) columns
      after calls) :
    cipher.Opens cells (column :: columns) after (.decrypt ciphertext :: calls) := by
  obtain ⟨place, led, stood⟩ := OrderedCells.exists_place found
  have written :=
    OrderedCells.getElem?_values_put led stood (.text (Text.withoutPadding plaintext))
  refine
    { length_calls := congrArg (· + 1) rest.length_calls
      opened := ?_
      kept := ?_
      names_eq := rest.names_eq.trans (OrderedCells.names_put _ _ _)
      place?_eq := fun name => (rest.place?_eq name).trans (OrderedCells.place?_put _ _ _ _) }
  · intro turn other here
    cases turn with
    | zero =>
        obtain rfl := Option.some.inj here
        refine ⟨place, value, ciphertext, plaintext, led, stood, visible, held, rfl, answer, ?_⟩
        rw [rest.kept place, written, if_pos rfl]
        -- No later column leads to the cell.
        intro later member there
        rw [OrderedCells.place?_put] at there
        exact fresh (apart column later place led there ▸ member)
    | succ turn =>
        rw [List.getElem?_cons_succ] at here
        obtain ⟨position, old, read, made, there, was, shown, holds, call, given, left⟩ :=
          rest.opened turn other here
        rw [OrderedCells.place?_put] at there
        have elsewhere : position ≠ place := by
          rintro rfl
          exact fresh (apart column other position led there ▸ List.mem_of_getElem? here)
        rw [written, if_neg elsewhere] at was
        exact ⟨position, old, read, made, there, was, shown, holds, call, given, left⟩
  · intro position outside
    have elsewhere : position ≠ place := by
      rintro rfl
      exact outside column List.mem_cons_self led
    rw [rest.kept position, written, if_neg elsewhere]
    intro later member
    rw [OrderedCells.place?_put]
    exact outside later (List.mem_cons_of_mem column member)

end Rows

end Cipher

/-! One pass. -/

section Pass
variable {row : Type} [Cells row] {cells : row} {columns : List String}

theorem openCells_none (cells : row) (columns : List String) :
    openCells none columns cells =
      ⟨cells,
        match columns.find? (Cells.shows cells) with
        | some column => .error (.configuration (.noCipher column))
        | none => .ok (),
        []⟩ := by
  induction columns with
  | nil => rfl
  | cons first rest ih =>
      cases shows : Cells.shows cells first with
      | true =>
          obtain ⟨value, found, visible⟩ := (Cells.shows_iff cells first).mp shows
          rw [openCells_of_visible rest found visible, List.find?_cons_of_pos shows]
          rfl
      | false =>
          rw [openCells_of_hidden rest shows, ih, List.find?_cons_of_neg (by simp [shows])]

theorem openValue_cases (cipher : Cipher) (column : String) (value : Value) :
    (∃ cause trace, openValue (some cipher) column value = (.error cause, trace)
      ∧ cipher.Rejects column value cause trace.cipherCalls)
    ∨ ∃ ciphertext plaintext trace,
      openValue (some cipher) column value = (.ok (.text (Text.withoutPadding plaintext)), trace)
      ∧ trace.cipherCalls = [.decrypt ciphertext] ∧ value.Holds ciphertext
      ∧ cipher.decrypt ciphertext = .ok plaintext := by
  unfold openValue
  cases read : value.ciphertext with
  | error fault =>
      refine Or.inl ⟨_, _, rfl, .unread read fun text held => ?_⟩
      rw [(Value.ciphertext_eq_ok_iff value text).mpr held] at read
      contradiction
  | ok ciphertext =>
      have held := (Value.ciphertext_eq_ok_iff value ciphertext).mp read
      cases answer : cipher.decrypt ciphertext with
      | error cause =>
          refine Or.inl ⟨_, [.cipher (.decrypt ciphertext)], ?_, .failed held answer⟩
          simp [answer]
      | ok plaintext =>
          refine Or.inr ⟨ciphertext, plaintext,
            [.cipher (.decrypt ciphertext), .event (.decrypted column)], ?_, rfl, held, answer⟩
          simp [answer]

variable [OrderedCells row] {cipher : Cipher}

/-- The two ways a pass over the columns can go: through all of them, or up to one whose cell
    is not blank and cannot be decrypted. -/
inductive Cipher.Passes (cipher : Cipher) (cells : row) (columns : List String)
    (pass : Opening row) : Prop where
  | through (done : pass.result = .ok ())
      (opens : cipher.Opens cells (columns.filter (Cells.shows cells)) pass.row
        pass.trace.cipherCalls)
  | stopped {before after : List String} {column : String} {value : Value} {cause : Error}
      {calls last : List CipherCall} (split : columns = before ++ column :: after)
      (found : Cells.cell? cells column = some value) (visible : value.isBlank = false)
      (failed : pass.result = .error cause) (rejects : cipher.Rejects column value cause last)
      (opens : cipher.Opens cells (before.filter (Cells.shows cells)) pass.row calls)
      (trace : pass.trace.cipherCalls = calls ++ last)
      (kept : Cells.cell? pass.row column = some value)

theorem passes_openCells (apart : Apart cells) (distinct : columns.Nodup) :
    cipher.Passes cells columns (openCells (some cipher) columns cells) := by
  induction columns generalizing cells with
  | nil => exact .through rfl (Cipher.opens_nil cells)
  | cons first rest ih =>
      obtain ⟨fresh, tail⟩ := List.nodup_cons.mp distinct
      cases shows : Cells.shows cells first with
      | true =>
          obtain ⟨value, found, visible⟩ := (Cells.shows_iff cells first).mp shows
          rcases openValue_cases cipher first value with
            ⟨cause, trace, answer, rejects⟩ | ⟨ciphertext, plaintext, trace, answer, call, held, gave⟩
          · have refused : openCells (some cipher) (first :: rest) cells =
                ⟨cells, .error cause, trace⟩ := by
              rw [openCells_of_visible rest found visible, answer]
            rw [refused]
            exact .stopped (List.nil_append _).symm found visible rfl rejects
              (Cipher.opens_nil cells) (List.nil_append _).symm found
          · let plain : Value := .text (Text.withoutPadding plaintext)
            let later := openCells (some cipher) rest (Cells.put cells first plain)
            have goes : openCells (some cipher) (first :: rest) cells =
                { later with trace := trace ++ later.trace } := by
              rw [openCells_of_visible rest found visible, answer]
            have calls : (trace ++ later.trace).cipherCalls =
                .decrypt ciphertext :: later.trace.cipherCalls := by
              rw [Trace.cipherCalls_append, call]
              rfl
            rw [goes]
            cases ih (apart.put first plain) tail with
            | through done opens =>
                refine .through done ?_
                rw [OrderedCells.laws.filter_shows_put apart fresh] at opens
                rw [List.filter_cons_of_pos shows, calls]
                exact opens.cons apart (fun again => fresh (List.mem_filter.mp again).1) found
                  visible held gave
            | @stopped before after column old cause done last split there shown failed rejects
                opens traced kept =>
                subst split
                have apartFirst : column ≠ first := by
                  rintro rfl
                  exact fresh (by simp)
                have freshBefore : first ∉ before := fun again =>
                  fresh (List.mem_append_left _ again)
                rw [OrderedCells.laws.cell?_put_other _ apart apartFirst] at there
                rw [OrderedCells.laws.filter_shows_put apart freshBefore] at opens
                have opensAll := opens.cons apart
                  (fun again => freshBefore (List.mem_filter.mp again).1) found visible held gave
                rw [← List.filter_cons_of_pos shows] at opensAll
                exact .stopped (List.cons_append ..).symm there shown failed rejects opensAll
                  (by rw [calls, traced, List.cons_append]) kept
      | false =>
          rw [openCells_of_hidden rest shows]
          have skipped (columns : List String) :
              (first :: columns).filter (Cells.shows cells) =
                columns.filter (Cells.shows cells) := List.filter_cons_of_neg (by simp [shows])
          cases ih apart tail with
          | through done opens => exact .through done (by rwa [skipped])
          | stopped split there shown failed rejects opens traced kept =>
              rw [← skipped] at opens
              subst split
              exact .stopped (List.cons_append ..).symm there shown failed rejects opens traced kept

/-- A pass over the columns of a row does what the list asks for, as far as it can be done. -/
def OpensAsListed (cipher : Option Cipher) (columns : List String) (cells : row) : Prop :=
  let pass := openCells cipher columns cells
  match cipher with
  | none =>
      pass.row = cells ∧ pass.trace = []
        ∧ (pass.result = .ok () ↔ ∀ column ∈ columns, ∀ value,
          Cells.cell? cells column = some value → value.isBlank = true)
        ∧ ∀ cause, pass.result = .error cause → ∃ column,
          columns.find? (Cells.shows cells) = some column
            ∧ cause = .configuration (.noCipher column)
  | some cipher =>
      cipher.Passes cells columns pass
        ∧ (pass.result = .ok () ↔ cipher.Decrypts columns cells)

theorem opensAsListed (apart : Apart cells) (distinct : columns.Nodup)
    (cipher : Option Cipher) : OpensAsListed cipher columns cells := by
  unfold OpensAsListed
  cases cipher with
  | none =>
      rw [openCells_none]
      cases found : columns.find? (Cells.shows cells) with
      | none =>
          have hidden := List.find?_eq_none.mp found
          refine ⟨rfl, rfl, ?_, ?_⟩
          · simpa [Cells.shows] using hidden
          · intro cause failed
            contradiction
      | some column =>
          obtain ⟨value, held, visible⟩ :=
            (Cells.shows_iff cells column).mp (List.find?_some found)
          refine ⟨rfl, rfl, ?_, ?_⟩
          · constructor
            · intro done
              contradiction
            · intro blank
              have hidden := blank column (List.mem_of_find?_eq_some found) value held
              rw [visible] at hidden
              contradiction
          · intro cause failed
            exact ⟨column, rfl, (Except.error.inj failed).symm⟩
  | some key =>
      exact ⟨passes_openCells apart distinct,
        openCells_ok_iff_decrypts OrderedCells.laws apart distinct⟩

end Pass

/-- For rows made from names and values and for rows of fields, in whatever form they are
    fetched, and a list without repetitions: a pass that goes through replaces each listed cell
    that is not blank by its plaintext without padding, in one call each, in the order of the
    list; a pass that fails did so up to the first cell that cannot be decrypted, and tells its
    column; and all other cells, the names and their order stay. Without a cipher the row
    stays as it is, and a listed cell that is not blank is a fault of the configuration. -/
theorem openCells_as_listed {columns : List String} (distinct : columns.Nodup)
    (cipher : Option Cipher) :
    (∀ names values, OpensAsListed cipher columns (Row.ofNames names values))
    ∧ (∀ row, OpensAsListed cipher columns (Fields.ofRow row))
    ∧ (∀ names values, OpensAsListed cipher columns (ShapedRow.columns (.ofNames names values)))
    ∧ ∀ row, OpensAsListed cipher columns (ShapedRow.fields (.ofRow row)) := by
  refine ⟨?_, ?_, ?_, ?_⟩
  · intro names values
    exact opensAsListed (Row.apart_ofNames names values) distinct cipher
  · intro row
    exact opensAsListed (Fields.apart _) distinct cipher
  · intro names values
    exact opensAsListed (ShapedRow.apart_columns (Row.apart_ofNames names values)) distinct cipher
  · intro row
    exact opensAsListed (ShapedRow.apart_fields _) distinct cipher

/-- A row with the bytes of a ciphertext, a blank cell, and a name that is there twice. -/
def badge : Row :=
  .ofNames ["n", "ssn", "memo", "n"] [.int 1, .blob (Text.bytes "[cba]"), .null, .int 2]

theorem badge_opened_as_listed :
    Sample.reversing.Opens badge ["ssn"]
      (openCells (some Sample.reversing) ["memo", "ssn", "absent"] badge).row
      [.decrypt "[cba]"]
    ∧ ∃ value last, Cells.cell? (openCells (some Sample.reversing) ["ssn", "n"] badge).row "n" =
        some value
      ∧ Sample.reversing.Rejects "n" value
        (.decryption "n" (.malformed (.notText (.int 2)))) last := by
  have opens {columns : List String} (distinct : columns.Nodup) :=
    (openCells_as_listed distinct (some Sample.reversing)).1 ["n", "ssn", "memo", "n"] badge.values
  constructor
  · obtain ⟨passes, -⟩ := opens (show ["memo", "ssn", "absent"].Nodup by decide)
    cases passes with
    | through _ each => exact each
    | stopped _ _ _ failed => cases failed
  · obtain ⟨passes, -⟩ := opens (show ["ssn", "n"].Nodup by decide)
    cases passes with
    | through done => cases done
    | @stopped _ _ column _ _ _ _ _ _ _ failed rejects _ _ kept =>
        obtain rfl := Except.error.inj failed
        have named : column = "n" := by cases rejects <;> rfl
        subst named
        exact ⟨_, _, kept, rejects⟩

end SealedColumns
