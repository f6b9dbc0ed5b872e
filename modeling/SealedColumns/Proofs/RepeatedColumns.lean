import SealedColumns.Proofs.Agreement
import SealedColumns.Proofs.OpenedCells
import SealedColumns.Proofs.Visits
import SealedColumns.Sample.Person
import SealedColumns.Sample.Script

/-!
Columns that are listed again. A sealing pass visits a key once, so the repetition does not
count. An opening pass comes back to the cell and finds the plaintext there that it has
written: if that is blank the repetition does not count either, and if it is not, the
plaintext is taken for a ciphertext.
-/

namespace SealedColumns

open Placeholder (Expansions)

/-- The column that an error of a pass tells. -/
def Error.column? : Error → Option String
  | .encryption column _ => some column
  | .decryption column _ => some column
  | .configuration (.noCipher column) => some column
  | _ => none

/-- The columns, each once, that were not seen before. -/
def unseen (seen columns : List String) : List String :=
  (columns.filter (· ∉ seen)).eraseDups

theorem unseen_nil (columns : List String) : unseen [] columns = columns.eraseDups := by
  simp [unseen]

theorem unseen_cons (seen : List String) (first : String) (rest : List String) :
    unseen seen (first :: rest) =
      if first ∈ seen then unseen (first :: seen) rest
      else first :: unseen (first :: seen) rest := by
  unfold unseen
  by_cases again : first ∈ seen
  · rw [if_pos again, List.filter_cons_of_neg (by simpa using again)]
    congr 1
    apply List.filter_congr
    intro column _
    rw [decide_eq_decide, List.mem_cons, not_or]
    exact ⟨fun fresh => ⟨fun same => fresh (same ▸ again), fresh⟩, And.right⟩
  · rw [if_neg again, List.filter_cons_of_pos (by simpa using again), List.eraseDups_cons,
      List.filter_filter]
    congr 2
    apply List.filter_congr
    intro column _
    rw [Bool.eq_iff_iff]
    simp

theorem not_mem_unseen {seen columns : List String} {column : String} (again : column ∈ seen) :
    column ∉ unseen seen columns := by
  intro member
  have kept := (List.mem_filter.mp (List.mem_eraseDups.mp member)).2
  exact of_decide_eq_true kept again

/-- Whatever stands behind something in a list stands behind it in a front, or is the last. -/
theorem forall_split_append_singleton {α : Type} {holds : List α → α → Prop} (front : List α)
    (last : α) :
    (∀ before item after, front ++ [last] = before ++ item :: after → holds before item) ↔
      (∀ before item after, front = before ++ item :: after → holds before item)
        ∧ holds front last := by
  constructor
  · intro all
    refine ⟨?_, all front last [] rfl⟩
    rintro before item after rfl
    exact all before item (after ++ [last]) (by simp)
  · rintro ⟨inFront, atEnd⟩ before item after split
    induction after using List.reverseRecOn with
    | nil =>
        obtain ⟨rfl, same⟩ := List.append_inj' split rfl
        obtain rfl := (List.cons.inj same).1
        exact atEnd
    | append_singleton after end_ =>
        rw [← List.cons_append, ← List.append_assoc] at split
        exact inFront before item after (List.append_inj' split rfl).1

/-! The column at which a pass fails. -/

theorem Cipher.Rejects.column?_eq {cipher : Cipher} {column : String} {value : Value}
    {cause : Error} {calls : List CipherCall} (rejects : cipher.Rejects column value cause calls) :
    cause.column? = some column := by
  cases rejects <;> rfl

section Pass
variable {row : Type} [Cells row] {cipher : Option Cipher} {seen columns : List String}
  {column : String} {cells other : row}

/-- A visit to a cell that is not blank fails for its column, or makes a call. -/
theorem openCells_singleton_of_shows (cipher : Option Cipher)
    (shows : Cells.shows cells column = true) :
    (∃ cause, (openCells cipher [column] cells).result = .error cause
      ∧ cause.column? = some column)
    ∨ (openCells cipher [column] cells).result = .ok ()
      ∧ (openCells cipher [column] cells).trace.cipherCalls.length = 1 := by
  obtain ⟨value, found, visible⟩ := (Cells.shows_iff cells column).mp shows
  rw [openCells_of_visible [] found visible]
  cases cipher with
  | none => exact Or.inl ⟨_, rfl, rfl⟩
  | some cipher =>
      rcases openValue_cases cipher column value with
        ⟨cause, trace, answer, rejects⟩ | ⟨ciphertext, plaintext, trace, answer, call, -⟩
      · rw [answer]
        exact Or.inl ⟨cause, rfl, rejects.column?_eq⟩
      · rw [answer]
        refine Or.inr ⟨rfl, ?_⟩
        change (trace ++ []).cipherCalls.length = 1
        rw [List.append_nil, call]
        rfl

/-- A pass that fails tells one of its columns. -/
theorem column?_of_error {cause : Error}
    (failed : (openCells cipher columns cells).result = .error cause) :
    ∃ column ∈ columns, cause.column? = some column := by
  induction columns generalizing cells with
  | nil => contradiction
  | cons first rest ih =>
      cases shows : Cells.shows cells first with
      | false =>
          rw [openCells_of_hidden rest shows] at failed
          obtain ⟨column, member, told⟩ := ih failed
          exact ⟨column, List.mem_cons_of_mem first member, told⟩
      | true =>
          rw [openCells_cons] at failed
          rcases openCells_singleton_of_shows cipher shows with
            ⟨own, stopped, told⟩ | ⟨done, -⟩
          · rw [Opening.andThen_of_error stopped, stopped] at failed
            obtain rfl := Except.error.inj failed
            exact ⟨first, List.mem_cons_self, told⟩
          · rw [Opening.andThen_of_ok done] at failed
            obtain ⟨column, member, told⟩ := ih failed
            exact ⟨column, List.mem_cons_of_mem first member, told⟩

/-! Coming back to a column. -/

/-- Where the list comes back to a column, or to one that was seen before, the pass has left
    nothing there to decrypt. -/
def Settled (cipher : Option Cipher) (seen columns : List String) (cells : row) : Prop :=
  ∀ before column after, columns = before ++ column :: after → column ∈ seen ++ before →
    (openCells cipher before cells).result = .ok () →
      Cells.shows (openCells cipher before cells).row column = false

theorem settled_cons_iff (first : String) (rest : List String) :
    Settled cipher seen (first :: rest) cells ↔
      (first ∈ seen → Cells.shows cells first = false)
      ∧ ((openCells cipher [first] cells).result = .ok () →
        Settled cipher (first :: seen) rest (openCells cipher [first] cells).row) := by
  constructor
  · intro settled
    refine ⟨fun again => settled [] first rest rfl (by simpa using again) rfl, ?_⟩
    intro done before column after split again through
    have hidden := settled (first :: before) column after (congrArg (first :: ·) split)
      (List.perm_middle.mem_iff.mpr again)
    rw [openCells_cons, Opening.andThen_of_ok done] at hidden
    exact hidden through
  · rintro ⟨here, later⟩ before column after split again through
    cases before with
    | nil =>
        obtain ⟨rfl, rfl⟩ := List.cons.inj split
        exact here (by simpa using again)
    | cons start before =>
        obtain ⟨rfl, tail⟩ := List.cons.inj split
        rw [openCells_cons] at through ⊢
        cases done : (openCells cipher [first] cells).result with
        | error cause =>
            rw [Opening.andThen_of_error done, done] at through
            contradiction
        | ok =>
            rw [Opening.andThen_of_ok done] at through ⊢
            exact later done before column after tail (List.perm_middle.mem_iff.mp again) through

theorem Settled.openCells_unseen (settled : Settled cipher seen columns cells) :
    openCells cipher columns cells = openCells cipher (unseen seen columns) cells := by
  induction columns generalizing seen cells with
  | nil => rfl
  | cons first rest ih =>
      obtain ⟨here, later⟩ := (settled_cons_iff first rest).mp settled
      rw [unseen_cons]
      by_cases again : first ∈ seen
      · have hidden := here again
        have passed : openCells cipher [first] cells = ⟨cells, .ok (), []⟩ :=
          openCells_of_hidden [] hidden
        rw [passed] at later
        rw [if_pos again, openCells_of_hidden rest hidden]
        exact ih (later rfl)
      · rw [if_neg again, openCells_cons, openCells_cons first (unseen (first :: seen) rest)]
        cases done : (openCells cipher [first] cells).result with
        | error cause => rw [Opening.andThen_of_error done, Opening.andThen_of_error done]
        | ok => rw [Opening.andThen_of_ok done, Opening.andThen_of_ok done, ih (later done)]

/-- A pass over columns that were not seen never tells one that was. -/
theorem result_unseen_ne {cause : Error} (again : column ∈ seen)
    (told : cause.column? = some column) :
    (openCells cipher (unseen seen columns) cells).result ≠ .error cause := by
  intro failed
  obtain ⟨other, member, toldOther⟩ := column?_of_error failed
  obtain rfl := Option.some.inj (told.symm.trans toldOther)
  exact not_mem_unseen again member

section Laws
variable {valid : row → Prop} (laws : Cells.Laws valid)
include laws

theorem Cells.Laws.valid_opened (cipher : Option Cipher) (columns : List String)
    (coherent : valid cells) : valid (openCells cipher columns cells).row :=
  openCells_keeps (fun _ column _ value sound => laws.valid_put column value sound) coherent

/-- A visit to a column changes nothing under any other. -/
theorem agree_visited (first : String) (coherent : valid cells) :
    Agree (· ∉ first :: seen) (openCells cipher [first] cells).row cells := by
  intro name fresh
  apply cell?_openCells_of_not_mem laws coherent
  simpa using List.ne_of_not_mem_cons fresh

/-- A pass that ends as one without the columns seen before makes no fewer calls. -/
theorem length_calls_unseen_le (coherent : valid cells) (intact : valid other)
    (agree : Agree (· ∉ seen) cells other)
    (same : (openCells cipher columns cells).result =
      (openCells cipher (unseen seen columns) other).result) :
    (openCells cipher (unseen seen columns) other).trace.cipherCalls.length ≤
      (openCells cipher columns cells).trace.cipherCalls.length := by
  induction columns generalizing seen cells other with
  | nil => exact Nat.le_refl _
  | cons first rest ih =>
      have coherentLater := laws.valid_opened cipher [first] coherent
      have agreeLater : Agree (· ∉ first :: seen) (openCells cipher [first] cells).row other :=
        fun name fresh => (agree_visited laws first coherent name fresh).trans
          (agree name (List.not_mem_of_not_mem_cons fresh))
      rw [openCells_cons first rest, unseen_cons] at same ⊢
      by_cases again : first ∈ seen
      · rw [if_pos again] at same ⊢
        cases done : (openCells cipher [first] cells).result with
        | error cause =>
            rw [Opening.andThen_of_error done, done] at same
            obtain ⟨column, inside, told⟩ := column?_of_error done
            obtain rfl := List.mem_singleton.mp inside
            exact absurd same.symm (result_unseen_ne List.mem_cons_self told)
        | ok =>
            rw [Opening.andThen_of_ok done] at same ⊢
            rw [Trace.cipherCalls_append, List.length_append]
            exact Nat.le_add_left_of_le (ih coherentLater intact agreeLater same)
      · rw [if_neg again, openCells_cons first (unseen (first :: seen) rest)] at same ⊢
        have fresh : ∀ column ∈ [first], column ∉ seen := by simpa using again
        obtain ⟨results, traces, -⟩ :=
          openCells_agree cipher laws laws coherent intact fresh agree
        cases done : (openCells cipher [first] cells).result with
        | error cause =>
            rw [Opening.andThen_of_error done,
              Opening.andThen_of_error (results.symm.trans done), traces]
        | ok =>
            rw [Opening.andThen_of_ok done,
              Opening.andThen_of_ok (results.symm.trans done)] at same ⊢
            have fewer := ih coherentLater (laws.valid_opened cipher [first] intact)
              (fun name fresh => (agreeLater name fresh).trans
                (agree_visited laws first intact name fresh).symm) same
            rw [Trace.cipherCalls_append, Trace.cipherCalls_append, List.length_append,
              List.length_append, traces]
            exact Nat.add_le_add_left fewer _

/-- If the outcome and the calls are those of a pass without the columns seen before, nothing
    was left to decrypt where the list came back to a column. -/
theorem settled_of_unseen (coherent : valid cells)
    (same : (openCells cipher columns cells).result =
      (openCells cipher (unseen seen columns) cells).result)
    (calls : (openCells cipher columns cells).trace.cipherCalls =
      (openCells cipher (unseen seen columns) cells).trace.cipherCalls) :
    Settled cipher seen columns cells := by
  induction columns generalizing seen cells with
  | nil =>
      intro before column after split
      simp at split
  | cons first rest ih =>
      rw [unseen_cons] at same calls
      apply (settled_cons_iff first rest).mpr
      by_cases again : first ∈ seen
      · rw [if_pos again] at same calls
        cases shows : Cells.shows cells first with
        | false =>
            have passed : openCells cipher [first] cells = ⟨cells, .ok (), []⟩ :=
              openCells_of_hidden [] shows
            rw [openCells_of_hidden rest shows] at same calls
            rw [passed]
            exact ⟨fun _ => rfl, fun _ => ih coherent same calls⟩
        | true =>
            exfalso
            rw [openCells_cons] at same calls
            rcases openCells_singleton_of_shows cipher shows with
              ⟨cause, stopped, told⟩ | ⟨done, one⟩
            · rw [Opening.andThen_of_error stopped, stopped] at same
              exact result_unseen_ne List.mem_cons_self told same.symm
            · rw [Opening.andThen_of_ok done] at same calls
              have fewer := length_calls_unseen_le laws
                (laws.valid_opened cipher [first] coherent) coherent
                (agree_visited laws first coherent) same
              -- The call for the column comes on top.
              rw [← calls, Trace.cipherCalls_append, List.length_append, one] at fewer
              omega
      · rw [if_neg again, openCells_cons first rest,
          openCells_cons first (unseen (first :: seen) rest)] at same calls
        refine ⟨fun seenBefore => absurd seenBefore again, fun done => ?_⟩
        rw [Opening.andThen_of_ok done, Opening.andThen_of_ok done] at same calls
        rw [Trace.cipherCalls_append, Trace.cipherCalls_append] at calls
        exact ih (laws.valid_opened cipher [first] coherent) same (List.append_cancel_left calls)

end Laws

/-- The outcome, the row left behind and the calls are as if no column were listed twice. -/
def IgnoresRepetitions (cipher : Option Cipher) (columns : List String) (cells : row) : Prop :=
  let pass := openCells cipher columns cells
  let once := openCells cipher columns.eraseDups cells
  pass.result = once.result ∧ pass.row = once.row
    ∧ pass.trace.cipherCalls = once.trace.cipherCalls

theorem Settled.openCells_eraseDups (settled : Settled cipher [] columns cells) :
    openCells cipher columns cells = openCells cipher columns.eraseDups cells := by
  rw [← unseen_nil]
  exact settled.openCells_unseen

/-- The cell of a column that comes again holds the ciphertext of nothing but padding, unless it
    is blank or there is none, or a column before it cannot be decrypted. -/
def Cipher.BlanksRepeated (cipher : Cipher) (columns : List String) (cells : row) : Prop :=
  ∀ before column after, columns = before ++ column :: after → column ∈ before →
    cipher.Decrypts before cells → ∀ value ciphertext plaintext,
      Cells.cell? cells column = some value → value.isBlank = false →
      value.ciphertext = .ok ciphertext → cipher.decrypt ciphertext = .ok plaintext →
        Text.withoutPadding plaintext = ""

theorem shows_opened_iff {valid : row → Prop} {key : Cipher} (laws : Cells.Laws valid)
    (coherent : valid cells) (distinct : columns.Nodup) (member : column ∈ columns)
    (done : (openCells (some key) columns cells).result = .ok ()) :
    Cells.shows (openCells (some key) columns cells).row column = false ↔
      ∀ value ciphertext plaintext, Cells.cell? cells column = some value →
        value.isBlank = false → value.ciphertext = .ok ciphertext →
        key.decrypt ciphertext = .ok plaintext → Text.withoutPadding plaintext = "" := by
  cases shows : Cells.shows cells column with
  | false =>
      have blank : ∀ value, Cells.cell? cells column = some value → value.isBlank = true := by
        simpa [Cells.shows] using shows
      constructor
      · intro _ value ciphertext plaintext found visible
        rw [blank value found] at visible
        contradiction
      · intro _
        rw [Cells.shows, cell?_openCells_of_blank laws coherent blank]
        exact shows
  | true =>
      obtain ⟨value, found, visible⟩ := (Cells.shows_iff cells column).mp shows
      obtain ⟨_, ciphertext, plaintext, chosen, read, answer, left⟩ :=
        cell?_openCells laws coherent distinct member found visible done
      obtain rfl := Option.some.inj chosen
      have plain : Cells.shows (openCells (some key) columns cells).row column = false ↔
          Text.withoutPadding plaintext = "" := by
        simp [Cells.shows, left, Value.isBlank]
      rw [plain]
      constructor
      · intro empty other text made foundOther _ readOther answerOther
        obtain rfl := Option.some.inj (found.symm.trans foundOther)
        obtain rfl := Except.ok.inj (read.symm.trans readOther)
        obtain rfl := Except.ok.inj (answer.symm.trans answerOther)
        exact empty
      · exact fun only => only value ciphertext plaintext found visible read answer

theorem settled_iff_blanksRepeated {valid : row → Prop} {key : Cipher} (laws : Cells.Laws valid)
    (coherent : valid cells) :
    Settled (some key) [] columns cells ↔ key.BlanksRepeated columns cells := by
  induction columns using List.reverseRecOn with
  | nil => simp [Settled, Cipher.BlanksRepeated]
  | append_singleton front last ih =>
      unfold Settled Cipher.BlanksRepeated
      rw [forall_split_append_singleton, forall_split_append_singleton]
      refine (and_congr_left fun _ => ih).trans (and_congr_right fun blanks => ?_)
      -- Up to here the pass is one that visits no column twice.
      rw [(ih.mpr blanks).openCells_eraseDups, List.nil_append]
      have distinct := nodup_eraseDups front
      have through : (openCells (some key) front.eraseDups cells).result = .ok () ↔
          key.Decrypts front cells :=
        (openCells_ok_iff_decrypts laws coherent distinct).trans (by simp [Cipher.Decrypts])
      rw [through]
      refine forall_congr' fun member => forall_congr' fun decrypts => ?_
      exact shows_opened_iff laws coherent distinct (List.mem_eraseDups.mpr member)
        (through.mpr decrypts)

/-- Without a cipher no cell is changed, so a pass that comes back finds what it found. -/
theorem settled_none : Settled none [] columns cells := by
  rintro before column after - again through
  rw [openCells_none] at through ⊢
  cases found : before.find? (Cells.shows cells) with
  | some other =>
      rw [found] at through
      contradiction
  | none => simpa using List.find?_eq_none.mp found column again

/-- What it takes that listing a column again makes no difference to a pass over the row: that
    nothing is left to decrypt where the list comes back to a column, in terms of the pass; and
    in terms of the row, that with a cipher what comes again are blanks. -/
def RepetitionsDecided (cipher : Option Cipher) (columns : List String) (cells : row) : Prop :=
  (IgnoresRepetitions cipher columns cells ↔ Settled cipher [] columns cells)
  ∧ (Settled cipher [] columns cells ↔
    ∀ key, cipher = some key → key.BlanksRepeated columns cells)

theorem repetitionsDecided [OrderedCells row] (apart : OrderedCells.Apart cells) :
    RepetitionsDecided cipher columns cells := by
  constructor
  · constructor
    · rintro ⟨same, -, calls⟩
      rw [← unseen_nil] at same calls
      exact settled_of_unseen OrderedCells.laws apart same calls
    · intro settled
      rw [IgnoresRepetitions, ← settled.openCells_eraseDups]
      exact ⟨rfl, rfl, rfl⟩
  · cases cipher with
    | none => simp [settled_none]
    | some key =>
        rw [settled_iff_blanksRepeated OrderedCells.laws apart]
        simp

end Pass

namespace Statement

variable {state handle α : Type}

/-- Going on does the same with what a step gave. -/
theorem Step.andThen_congr {β : Type} {step : Step state handle α}
    {next other : α → Except Error β × Trace}
    (same : ∀ given, step.result = .ok given → next given = other given) :
    step.andThen next = step.andThen other := by
  unfold andThen
  cases result : step.result with
  | error cause => rfl
  | ok given => simp only [same given result]

section Fetch
variable {client : Client state handle} {world : World state} {statement : Statement handle}
  {columns : List String} {layout : Option RowLayout}

theorem fetch_eraseDups
    (settled : ∀ row, (nextRow client world statement).result = .ok (some row) →
      Settled statement.cipher [] columns
        (ShapedRow.ofRow (statement.layoutFor layout).kind row)) :
    statement.fetch client world (some columns) layout =
      statement.fetch client world (some columns.eraseDups) layout := by
  apply Step.andThen_congr
  intro row? given
  cases row? with
  | none => rfl
  | some row => simp only [columnsFor, Option.getD_some, (settled row given).openCells_eraseDups]

theorem fetchAs_eraseDups [OfRow α]
    (settled : ∀ row, (nextRow client world statement).result = .ok (some row) →
      Settled statement.cipher [] columns row) :
    (statement.fetchAs client world (some columns) : Step state handle (Option α)) =
      statement.fetchAs client world (some columns.eraseDups) := by
  apply Step.andThen_congr
  intro row? given
  cases row? with
  | none => rfl
  | some row => simp only [columnsFor, Option.getD_some, (settled row given).openCells_eraseDups]

theorem fetchRest_eraseDups
    (settled : ∀ results, (remainingRows client world statement).result = .ok results →
      ∀ cells ∈ (results.shaped (statement.layoutFor layout)).rows,
        Settled statement.cipher [] columns cells) :
    statement.fetchRest client world (some columns) layout =
      statement.fetchRest client world (some columns.eraseDups) layout := by
  apply Step.andThen_congr
  intro results given
  have same := openRowSet_congr fun cells member =>
    (settled results given cells member).openCells_eraseDups
  simp only [columnsFor, Option.getD_some, same]

end Fetch

/-- A column that is listed again makes no difference to a sealing pass. To an opening pass it
    makes none, log included, if nothing is left to decrypt where the list comes back to a
    column. For rows made from names and values and for rows of fields it makes none only then,
    which is to say if the columns that come again are blank or decrypted to padding. If
    nothing is left in the rows that the client gives, it makes none to fetching them. -/
theorem repetitions_ignored_iff (columns : List String) (cipher : Option Cipher) :
    (∀ params table draws,
      sealParameters params columns.eraseDups table cipher draws =
        sealParameters params columns table cipher draws)
    ∧ (∀ {row : Type} [Cells row] (cells : row), Settled cipher [] columns cells →
      openCells cipher columns cells = openCells cipher columns.eraseDups cells)
    ∧ (∀ names values, RepetitionsDecided cipher columns (Row.ofNames names values))
    ∧ (∀ cells : Fields, RepetitionsDecided cipher columns cells)
    ∧ (∀ names values,
      RepetitionsDecided cipher columns (ShapedRow.columns (.ofNames names values)))
    ∧ (∀ cells, RepetitionsDecided cipher columns (ShapedRow.fields cells))
    ∧ ∀ {state handle α : Type} [OfRow α] (client : Client state handle) (world : World state)
        (statement : Statement handle) (layout : Option RowLayout), statement.cipher = cipher →
      ((∀ row, (nextRow client world statement).result = .ok (some row) →
          Settled cipher [] columns (ShapedRow.ofRow (statement.layoutFor layout).kind row)) →
        statement.fetch client world (some columns) layout =
          statement.fetch client world (some columns.eraseDups) layout)
      ∧ ((∀ row, (nextRow client world statement).result = .ok (some row) →
          Settled cipher [] columns row) →
        (statement.fetchAs client world (some columns) : Step state handle (Option α)) =
          statement.fetchAs client world (some columns.eraseDups))
      ∧ ((∀ results, (remainingRows client world statement).result = .ok results →
          ∀ cells ∈ (results.shaped (statement.layoutFor layout)).rows,
            Settled cipher [] columns cells) →
        statement.fetchRest client world (some columns) layout =
          statement.fetchRest client world (some columns.eraseDups) layout) := by
  refine ⟨?_, fun cells settled => settled.openCells_eraseDups, ?_, ?_, ?_, ?_, ?_⟩
  · intro params table draws
    cases cipher with
    | none => rfl
    | some cipher =>
        exact congrArg (sealTargets cipher · params draws) (targetsOf_eraseDups columns table)
  · intro names values
    exact repetitionsDecided (Row.apart_ofNames names values)
  · intro cells
    exact repetitionsDecided cells.apart
  · intro names values
    exact repetitionsDecided (ShapedRow.apart_columns (Row.apart_ofNames names values))
  · intro cells
    exact repetitionsDecided (ShapedRow.apart_fields cells)
  · rintro state handle α _ client world statement layout rfl
    exact ⟨fetch_eraseDups, fetchAs_eraseDups, fetchRest_eraseDups⟩

/-- A statement that was executed, whose columns to decrypt are given for each fetch. -/
def accounts : Statement Nat where
  handle := 0
  sql := "SELECT pin, owner FROM t"
  expansions := .empty
  sealedColumns := []
  cipher := some (Sample.tag none)
  layout := ⟨.columns, false⟩
  state := .executed

/-- One account with the ciphertext of its number. -/
def account (pin : String) : Row := .ofNames ["pin", "owner"] [.text pin, .text "enc:Ada"]

def accountScript (pin : String) : Sample.Script :=
  ⟨some ["pin", "owner"], [account pin], true, none, none, none, none⟩

/-- A plaintext that is only padding leaves nothing to decrypt. -/
theorem padding_listed_twice :
    accounts.fetch (accountScript "enc:").client Sample.Script.start
        (some ["pin", "owner", "pin"]) none =
      accounts.fetch (accountScript "enc:").client Sample.Script.start
        (some ["pin", "owner"]) none
    ∧ accounts.fetchRest (accountScript "enc:").client Sample.Script.start
        (some ["pin", "owner", "pin"]) none =
      accounts.fetchRest (accountScript "enc:").client Sample.Script.start
        (some ["pin", "owner"]) none := by
  obtain ⟨-, -, -, -, shaped, -, fetches⟩ :=
    repetitions_ignored_iff ["pin", "owner", "pin"] (some (Sample.tag none))
  have settled := (shaped ["pin", "owner"] [.text "enc:", .text "enc:Ada"]).1.mp ⟨rfl, rfl, rfl⟩
  obtain ⟨one, -, all⟩ := @fetches _ _ Sample.Person _ (accountScript "enc:").client
    Sample.Script.start accounts none rfl
  constructor
  · apply one
    intro row given
    obtain rfl := Option.some.inj (Except.ok.inj given)
    exact settled
  · apply all
    intro results given cells member
    obtain rfl := Except.ok.inj given
    obtain rfl := List.mem_singleton.mp member
    exact settled

/-- A plaintext that is not blank is taken for a ciphertext when its column is listed again. -/
theorem plaintext_listed_twice :
    let once := accounts.fetch (accountScript "enc:1234").client Sample.Script.start
      (some ["pin"]) none
    let twice := accounts.fetch (accountScript "enc:1234").client Sample.Script.start
      (some ["pin", "pin"]) none
    once.result =
        .ok (some (.columns (.ofNames ["pin", "owner"] [.text "1234", .text "enc:Ada"])))
      ∧ once.trace.cipherCalls = [.decrypt "enc:1234"]
      ∧ twice.result = .error (.decryption "pin" (.malformed (.refused "1234")))
      ∧ twice.trace.cipherCalls = [.decrypt "enc:1234", .decrypt "1234"] :=
  ⟨rfl, rfl, rfl, rfl⟩

end Statement

end SealedColumns
