import Mathlib.Data.List.Forall2
import SealedColumns.Proofs.Agreement
import SealedColumns.Proofs.CipherCalls
import SealedColumns.Proofs.Placeholder.Broadcast

/-!
Blank values on their way through a statement. Neither expansion nor encryption touches a
blank parameter, and no shape, no grouping and no pass over a row, however often it comes by,
touches a blank cell. So they reach the client and the caller as they were given.
-/

namespace SealedColumns

open Placeholder (Expansions Receives rename)
open Parameters (KeyOf)

/-! Blank values stay. -/

/-- A blank value stays as it is. -/
def Value.Spares (before after : Value) : Prop := before.isBlank = true → after = before

/-- Nothing where there was nothing, and a blank value where there was this one. -/
abbrev SparesAt : Option Value → Option Value → Prop := Option.Rel Value.Spares

theorem SparesAt.refl (held : Option Value) : SparesAt held held := by
  cases held with
  | none => exact .none
  | some value => exact .some fun _ => rfl

theorem SparesAt.trans {first second third : Option Value} (one : SparesAt first second)
    (other : SparesAt second third) : SparesAt first third := by
  cases one with
  | none => exact other
  | some stays =>
      cases other with
      | some remains =>
          refine .some fun blank => ?_
          obtain rfl := stays blank
          exact remains blank

theorem SparesAt.of_visible {value : Value} (visible : value.isBlank = false) (other : Value) :
    SparesAt (some value) (some other) :=
  .some fun blank => by rw [visible] at blank; contradiction

/-- The names and where they lead are the same, and blank cells stay in their places. -/
structure SparesBlanks {row : Type} [Cells row] [OrderedCells row] (before after : row) :
    Prop where
  names_eq : OrderedCells.names after = OrderedCells.names before
  place?_eq : ∀ name, OrderedCells.place? after name = OrderedCells.place? before name
  values : ∀ place : Nat,
    SparesAt (OrderedCells.values before)[place]? (OrderedCells.values after)[place]?

namespace SparesBlanks
variable {row : Type} [Cells row] [OrderedCells row] {before after : row}

theorem refl (cells : row) : SparesBlanks cells cells := ⟨rfl, fun _ => rfl, fun _ => .refl _⟩

theorem trans {middle : row} (one : SparesBlanks before middle)
    (other : SparesBlanks middle after) : SparesBlanks before after where
  names_eq := other.names_eq.trans one.names_eq
  place?_eq name := (other.place?_eq name).trans (one.place?_eq name)
  values place := (one.values place).trans (other.values place)

theorem put {column : String} {value : Value} (found : Cells.cell? before column = some value)
    (visible : value.isBlank = false) (plain : Value) :
    SparesBlanks before (Cells.put before column plain) where
  names_eq := OrderedCells.names_put _ _ _
  place?_eq := OrderedCells.place?_put _ _ _
  values := by
    intro place
    obtain ⟨changed, led, held⟩ := OrderedCells.exists_place found
    rw [OrderedCells.getElem?_values_put led held]
    by_cases same : place = changed
    · rw [if_pos same, same, held]
      exact .of_visible visible plain
    · rw [if_neg same]
      exact .refl _

theorem cell? (spares : SparesBlanks before after) (name : String) :
    SparesAt (Cells.cell? before name) (Cells.cell? after name) := by
  rw [OrderedCells.cell?_eq, OrderedCells.cell?_eq, spares.place?_eq]
  cases OrderedCells.place? before name with
  | none => exact .none
  | some place => exact spares.values place

end SparesBlanks

/-- Whatever becomes of a pass, and however often it comes by a cell. -/
theorem sparesBlanks_openCells {row : Type} [Cells row] [OrderedCells row] (cipher : Option Cipher)
    (columns : List String) (cells : row) :
    SparesBlanks cells (openCells cipher columns cells).row := by
  fun_induction openCells cipher columns cells with
  | case1 | case4 | case5 | case6 => exact .refl _
  | case2 _ _ _ _ _ ih | case3 _ _ _ _ _ _ _ ih => exact ih
  | case7 column rest cells value found visible cipher ciphertext text plaintext answer later ih =>
      exact (SparesBlanks.put found (by simpa using visible) _).trans ih

/-! Rows in the shape in which they are handed over. -/

/-- The value of the last cell under the name. -/
def Row.lastCell? (row : Row) (name : String) : Option Value :=
  (lastPosition? name (row.cells.map (·.1))).bind fun place => row.cells[place]?.map (·.2)

/-- A row in its shape bears the cells of the given row, the blank ones as they were. Under a
    name that is there twice a row of fields has only the last cell. -/
def ShapedRow.Bears (row : Row) : ShapedRow → Prop
  | .columns given => SparesBlanks row given
  | .fields given => given.names.Nodup ∧ ∀ name, SparesAt (row.lastCell? name) (given.get? name)

theorem Fields.get?_ofRow_eq_lastCell? (row : Row) (name : String) :
    (ofRow row).get? name = row.lastCell? name := by
  rw [ofRow, get?_foldl_set, Row.lastCell?]
  cases lastPosition? name (row.cells.map (·.1)) <;> rfl

theorem isSome_firstNamed {α : Type} {name : String} {entries : List (String × α)}
    (member : name ∈ entries.map (·.1)) : (firstNamed name entries).isSome := by
  induction entries with
  | nil => contradiction
  | cons first rest ih =>
      rw [firstNamed]
      by_cases here : first.1 = name
      · rw [if_pos here]
        rfl
      · rw [if_neg here]
        exact ih ((List.mem_cons.mp member).resolve_left (Ne.symm here))

namespace Fields

theorem nodup_names_set {fields : Fields} (distinct : fields.names.Nodup) (name : String)
    (value : Value) : (fields.set name value).names.Nodup := by
  unfold set
  by_cases held : (fields.get? name).isSome
  · rw [if_pos held, names_put]
    exact distinct
  · rw [if_neg held]
    have fresh : name ∉ fields.names := fun member => held (isSome_firstNamed member)
    have names : (names ⟨fields.entries ++ [(name, value)]⟩) = fields.names ++ [name] :=
      List.map_append
    rw [names]
    exact distinct.append (List.nodup_singleton _) (List.disjoint_singleton.mpr fresh)

theorem nodup_names_ofRow (row : Row) : (ofRow row).names.Nodup := by
  unfold ofRow
  generalize row.cells = cells
  have start : empty.names.Nodup := List.nodup_nil
  generalize empty = fields at start ⊢
  induction cells generalizing fields with
  | nil => exact start
  | cons first rest ih => exact ih _ (nodup_names_set start _ _)

end Fields

namespace ShapedRow

def kind : ShapedRow → RowKind
  | columns _ => .columns
  | fields _ => .fields

theorem kind_openCells (cipher : Option Cipher) (columns : List String) (shaped : ShapedRow) :
    (openCells cipher columns shaped).row.kind = shaped.kind := by
  let holds (cells : ShapedRow) : Prop := cells.kind = shaped.kind
  have kept : ∀ cells, ∀ column ∈ columns, ∀ value, holds cells →
      holds (Cells.put cells column value) := by
    rintro (row | fields) column - value same <;> exact same
  exact openCells_keeps kept (show holds shaped from rfl)

theorem bears_of_sparesBlanks {row : Row} {kind : RowKind} {given : ShapedRow}
    (same : given.kind = kind) (spares : SparesBlanks (ofRow kind row) given) :
    given.Bears row := by
  cases given with
  | columns after =>
      subst same
      exact ⟨spares.names_eq, spares.place?_eq, spares.values⟩
  | fields after =>
      subst same
      have names : after.names = (Fields.ofRow row).names := spares.names_eq
      refine ⟨names ▸ Fields.nodup_names_ofRow row, fun name => ?_⟩
      rw [← Fields.get?_ofRow_eq_lastCell?]
      exact spares.cell? name

end ShapedRow

theorem bears_openCells (cipher : Option Cipher) (columns : List String) (kind : RowKind)
    (row : Row) : (openCells cipher columns (ShapedRow.ofRow kind row)).row.Bears row := by
  refine ShapedRow.bears_of_sparesBlanks ?_ (sparesBlanks_openCells cipher columns _)
  rw [ShapedRow.kind_openCells]
  cases kind <;> rfl

/-- Groups bear the first cells of their first rows, and in order what is left of the rows
    that share it. Without column names there are no groups. -/
def RowSet.Bears (layout : RowLayout) (results : ResultSet) : RowSet → Prop
  | .flat rows => layout.grouped = false
      ∧ List.Forall₂ (fun row (given : ShapedRow) => given.Bears row) results.rows rows
  | .grouped groups => layout.grouped = true ∧
      match results.names? with
      | none => groups = []
      | some names => ∀ group ∈ groups,
          let sharing := rowsSharing group.groupIdentity results.rows
          sharing.head?.map (·.firstCell) = some group.key
            ∧ List.Forall₂ (fun row (given : ShapedRow) => given.Bears (row.nested (names.drop 1)))
              sharing group.rows

theorem bears_openRowSet {cipher : Option Cipher} {columns : List String} {layout : RowLayout}
    {results : ResultSet}
    (done : (openRowSet cipher columns (results.shaped layout)).result = .ok ()) :
    (openRowSet cipher columns (results.shaped layout)).row.Bears layout results := by
  cases grouped : layout.grouped with
  | false =>
      rw [(openRowSet_flat grouped).2 done]
      refine ⟨grouped, List.forall₂_map_right_iff.mpr (List.forall₂_same.mpr fun row _ => ?_)⟩
      exact bears_openCells cipher columns layout.kind row
  | true =>
      cases named : results.names? with
      | none =>
          have shaped : results.shaped layout = .grouped [] := by
            rw [ResultSet.shaped, if_pos grouped, named]
          rw [shaped]
          refine ⟨grouped, ?_⟩
          rw [named]
          rfl
      | some names =>
          obtain ⟨groups, made, grouping⟩ := (openRowSet_grouped named grouped).2 done
          rw [made]
          refine ⟨grouped, ?_⟩
          rw [named]
          intro group member
          refine ⟨grouping.key group member, ?_⟩
          rw [grouping.gathered group member]
          refine List.forall₂_map_right_iff.mpr (List.forall₂_same.mpr fun row _ => ?_)
          exact bears_openCells cipher columns layout.kind (row.nested (names.drop 1))

/-! Parameters. -/

/-- The bound value from which comes what is handed over under a key: that of a repeated name,
    or else the one that was bound under the key itself. -/
inductive ComesFrom (table : Expansions) (params : Parameters) (key : String) (source : Value) :
    Prop where
  | repeated (received : Receives table params key source)
  | own (unrepeated : ¬ ∃ base ∈ table.names, KeyOf base key)
      (unreceived : ¬ ∃ value, Receives table params key value)
      (bound : params.get? key = some source)

theorem get?_expand_eq_some_iff {table : Expansions} (separate : table.Separate)
    {params : Parameters} {key : String} {source : Value} :
    (table.expand params).get? key = some source ↔ ComesFrom table params key source := by
  constructor
  · intro found
    by_cases base : ∃ base ∈ table.names, KeyOf base key
    · obtain ⟨name, member, keyed⟩ := base
      rw [Placeholder.get?_expand_base separate params member keyed] at found
      contradiction
    · by_cases received : ∃ value, Receives table params key value
      · obtain ⟨value, received⟩ := received
        rw [Placeholder.get?_expand_of_receives separate received] at found
        obtain rfl := Option.some.inj found
        exact .repeated received
      · rw [Placeholder.get?_expand_of_not_receives separate base received] at found
        exact .own base received found
  · rintro (received | ⟨unrepeated, unreceived, bound⟩)
    · exact Placeholder.get?_expand_of_receives separate received
    · rw [Placeholder.get?_expand_of_not_receives separate unrepeated unreceived, bound]

/-- What the client gets comes from bound values, and where such a value is blank it gets
    this value. -/
structure HandsOver (table : Expansions) (params given : Parameters) : Prop where
  comes : ∀ key value, given.get? key = some value → ∃ source, ComesFrom table params key source
  spared : ∀ key source, ComesFrom table params key source → source.isBlank = true →
    given.get? key = some source

theorem sparesAt_sealTargets (cipher : Cipher) (targets : List Target) (params : Parameters)
    (draws : Nat) (key : String) :
    SparesAt (params.get? key) ((sealTargets cipher targets params draws).params.get? key) := by
  by_cases blank : ∀ value ∈ params.get? key, value.isBlank = true
  · rw [get?_sealTargets_of_blank blank]
    exact .refl _
  · obtain ⟨value, found, visible⟩ : ∃ value, params.get? key = some value
        ∧ value.isBlank = false := by simpa using blank
    have bound : (sealTargets cipher targets params draws).params.contains key = true := by
      rw [contains_sealTargets, NameMap.contains, found]
      rfl
    obtain ⟨other, left⟩ := Option.isSome_iff_exists.mp bound
    rw [found, left]
    exact .of_visible visible other

theorem sparesAt_sealParameters (params : Parameters) (columns : List String) (table : Expansions)
    (cipher : Option Cipher) (draws : Nat) (key : String) :
    SparesAt (params.get? key)
      ((sealParameters params columns table cipher draws).params.get? key) := by
  cases cipher with
  | none => exact .refl _
  | some cipher => exact sparesAt_sealTargets _ _ _ _ _

theorem handsOver_of_sparesAt {table : Expansions} (separate : table.Separate)
    {params given : Parameters}
    (spares : ∀ key, SparesAt ((table.expand params).get? key) (given.get? key)) :
    HandsOver table params given where
  comes key value found := by
    have here := spares key
    rw [found] at here
    cases expanded : (table.expand params).get? key with
    | none =>
        rw [expanded] at here
        cases here
    | some source => exact ⟨source, (get?_expand_eq_some_iff separate).mp expanded⟩
  spared key source comes blank := by
    have here := spares key
    rw [(get?_expand_eq_some_iff separate).mpr comes] at here
    cases handed : given.get? key with
    | none =>
        rw [handed] at here
        cases here
    | some value =>
        rw [handed] at here
        cases here with
        | some stays => rw [stays blank]

/-! What is handed over. -/

namespace Statement

variable {state handle α β : Type} {client : Client state handle} {world : World state}
  {statement : Statement handle}

theorem preparedFrom_history {sql : String} {first last : Statement handle}
    {done : List Operation} {trace : Trace} (prepared : PreparedFrom sql first)
    (history : History client first done trace last) : PreparedFrom sql last := by
  induction history with
  | start => exact prepared
  | next past performed ih =>
      obtain ⟨reads, world, rfl⟩ := performed
      exact preparedFrom_perform ih _

theorem nextRow_result {row : Option Row}
    (given : (nextRow client world statement).result = .ok row) :
    (client.fetch world.client statement.handle).1 = .ok row := by
  unfold nextRow at given
  split at given
  · cases given
  · dsimp only at given
    split at given
    · cases given
    · next answer =>
      obtain rfl := Except.ok.inj given
      exact answer

theorem remainingRows_result {results : ResultSet}
    (given : (remainingRows client world statement).result = .ok results) :
    (client.fetchRest world.client statement.handle).1 = .ok results := by
  unfold remainingRows at given
  split at given
  · cases given
  · dsimp only at given
    split at given
    · cases given
    · next answer =>
      obtain rfl := Except.ok.inj given
      exact answer

theorem exists_of_andThen {step : Step state handle α} {next : α → Except Error β × Trace}
    {value : β} (done : (step.andThen next).result = .ok value) :
    ∃ given, step.result = .ok given ∧ (next given).1 = .ok value := by
  unfold Step.andThen at done
  cases result : step.result with
  | error cause =>
      rw [result] at done
      cases done
  | ok given =>
      rw [result] at done
      exact ⟨given, rfl, done⟩

/-- The value was read from the row, in which blank cells were as the client gave them. -/
def ReadFrom [OfRow α] (row : Row) (value : α) : Prop :=
  ∃ given, SparesBlanks row given ∧ OfRow.ofRow given = .ok value

theorem readFrom_of_readRows [OfRow α] {cipher : Option Cipher} {columns : List String}
    {rows : List Row} {reads : List α} (done : (readRows cipher columns rows).1 = .ok reads) :
    List.Forall₂ ReadFrom rows reads := by
  induction rows generalizing reads with
  | nil =>
      obtain rfl := Except.ok.inj done
      exact .nil
  | cons first rest ih =>
      unfold readRows at done
      dsimp only at done
      split at done
      · cases done
      · split at done
        · cases done
        · next read made =>
          obtain ⟨later, rest, rfl⟩ := exists_ok_of_map done
          exact .cons ⟨_, sparesBlanks_openCells cipher columns first, made⟩ (ih rest)

theorem bears_of_fetch {columns : Option (List String)} {layout : Option RowLayout}
    {given : ShapedRow}
    (done : (statement.fetch client world columns layout).result = .ok (some given)) :
    ∃ row, (client.fetch world.client statement.handle).1 = .ok (some row) ∧ given.Bears row := by
  obtain ⟨row?, answer, made⟩ := exists_of_andThen done
  cases row? with
  | none =>
      cases made
  | some row =>
      obtain ⟨-, -, same⟩ := exists_ok_of_map made
      obtain rfl := Option.some.inj same
      exact ⟨row, nextRow_result answer, bears_openCells _ _ _ row⟩

theorem readFrom_of_fetchAs [OfRow α] {columns : Option (List String)} {value : α}
    (done : (statement.fetchAs client world columns).result = .ok (some value)) :
    ∃ row, (client.fetch world.client statement.handle).1 = .ok (some row)
      ∧ ReadFrom row value := by
  obtain ⟨row?, answer, made⟩ := exists_of_andThen done
  cases row? with
  | none => cases made
  | some row =>
      dsimp only at made
      split at made
      · cases made
      · obtain ⟨read, took, same⟩ := exists_ok_of_map made
        obtain rfl := Option.some.inj same
        exact ⟨row, nextRow_result answer, _, sparesBlanks_openCells _ _ row, took⟩

theorem bears_of_fetchRest {columns : Option (List String)} {layout : Option RowLayout}
    {set : RowSet} (done : (statement.fetchRest client world columns layout).result = .ok set) :
    ∃ results, (client.fetchRest world.client statement.handle).1 = .ok results
      ∧ set.Bears (statement.layoutFor layout) results := by
  obtain ⟨results, answer, made⟩ := exists_of_andThen done
  obtain ⟨nothing, went, rfl⟩ := exists_ok_of_map made
  exact ⟨results, remainingRows_result answer, bears_openRowSet went⟩

theorem readFrom_of_fetchRestAs [OfRow α] {reads : List α}
    (done : (statement.fetchRestAs client world).result = .ok reads) :
    ∃ results, (client.fetchRest world.client statement.handle).1 = .ok results
      ∧ List.Forall₂ ReadFrom results.rows reads := by
  obtain ⟨results, answer, made⟩ := exists_of_andThen done
  exact ⟨results, remainingRows_result answer, readFrom_of_readRows made⟩

theorem handsOver_of_execute {sql : String} (prepared : PreparedFrom sql statement)
    {params given : Parameters}
    (called : .execute given ∈ (statement.execute client world params).trace.clientCalls) :
    HandsOver (rename sql).expansions params given := by
  obtain ⟨-, rfl, -⟩ := executes_of_mem called
  refine handsOver_of_sparesAt (Placeholder.separate_rename sql) fun key => ?_
  rw [← prepared.table]
  exact sparesAt_sealParameters _ _ _ _ _ key

/-- What the next operation on a statement hands over, to the client or to the caller. -/
structure BlanksStay (client : Client state handle) (sql : String) (last : Statement handle) :
    Prop where
  reported : ∀ {α : Type} [OfRow α] (world : World state) (operation : Operation),
    (last.perform client world operation : Step state handle (Answer α)).Reports client world last
  executed : ∀ {α : Type} [OfRow α] (world : World state) (operation : Operation) given,
    .execute given ∈ Trace.clientCalls
        (last.perform client world operation : Step state handle (Answer α)).trace →
      ∃ params, operation = .execute params
  bound : ∀ (world : World state) (params given : Parameters),
    .execute given ∈ (last.execute client world params).trace.clientCalls →
      (last.execute client world params).Executes client world last given
        ∧ HandsOver (rename sql).expansions params given
  row : ∀ (world : World state) (columns : Option (List String)) (layout : Option RowLayout) given,
    (last.fetch client world columns layout).result = .ok (some given) →
      ∃ row, (client.fetch world.client last.handle).1 = .ok (some row) ∧ given.Bears row
  read : ∀ {α : Type} [OfRow α] (world : World state) (columns : Option (List String)) (value : α),
    (last.fetchAs client world columns).result = .ok (some value) →
      ∃ row, (client.fetch world.client last.handle).1 = .ok (some row) ∧ ReadFrom row value
  rows : ∀ (world : World state) (columns : Option (List String)) (layout : Option RowLayout) set,
    (last.fetchRest client world columns layout).result = .ok set →
      ∃ results, (client.fetchRest world.client last.handle).1 = .ok results
        ∧ set.Bears (last.layoutFor layout) results
  reads : ∀ {α : Type} [OfRow α] (world : World state) (reads : List α),
    (last.fetchRestAs client world).result = .ok reads →
      ∃ results, (client.fetchRest world.client last.handle).1 = .ok results
        ∧ List.Forall₂ ReadFrom results.rows reads

/-- Over all that is done with a statement, from its preparation on, the cipher never gets an
    empty text, and at any time blank values that were bound reach the client and blank cells
    of the client's rows reach the caller as they are. -/
theorem blanks_pass_untouched {sql : String} {cipher : Option Cipher} {layout : RowLayout}
    {first last : Statement handle} {done : List Operation} {trace : Trace}
    (prepared : (prepare client world sql cipher layout).result = .ok first)
    (history : History client first done trace last) :
    Trace.Visible ((prepare client world sql cipher layout).trace ++ trace)
      ∧ BlanksStay client sql last := by
  have table := preparedFrom_history (preparedFrom_prepare prepared) history
  refine ⟨Trace.visible_append.mpr ⟨visible_prepare sql cipher layout,
    visible_of_history history⟩, ?_⟩
  exact
    { reported := fun world => reports_perform client world last
      executed := fun _ _ _ called => execute_of_mem_perform called
      bound := fun _ _ _ called => ⟨(executes_of_mem called).2.2, handsOver_of_execute table called⟩
      row := fun _ _ _ _ done => bears_of_fetch done
      read := fun _ _ _ done => readFrom_of_fetchAs done
      rows := fun _ _ _ _ done => bears_of_fetchRest done
      reads := fun _ _ done => readFrom_of_fetchRestAs done }

/-- A row with an encrypted number and an empty note. -/
def formScript : Sample.Script :=
  ⟨none, [.ofNames ["ssn", "note"] [.text "enc:1", .text ""]], true, none, none, none, none⟩

/-- Both columns are configured, but the cipher is called for the number only. -/
theorem empty_note_passes_untouched :
    let client := formScript.client
    let sql := ":ssn, :ssn, :note"
    let params : Parameters := NameMap.ofList [("ssn", .int 1), ("note", .text "")]
    let prepared := prepare client Sample.Script.start sql (some (Sample.tag none)) .standard
    ∃ first last trace, prepared.result = .ok first
      ∧ History client first
        [.encryptColumns ["ssn", "note"] none, .execute params, .fetch none none] trace last
      ∧ trace.cipherCalls = [.encrypt "1", .encrypt "1", .decrypt "enc:1"]
      ∧ Trace.Visible (prepared.trace ++ trace) ∧ BlanksStay client sql last := by
  intro client sql params prepared
  let first : Statement Nat :=
    { handle := 0
      sql := (rename sql).sql
      expansions := (rename sql).expansions
      sealedColumns := []
      cipher := some (Sample.tag none)
      layout := .standard
      state := .prepared }
  have made : prepared.result = .ok first := rfl
  have history := history_run (α := Sample.Person) (.start : History client first [] [] first)
    Sample.Script.start
    [.encryptColumns ["ssn", "note"] none, .execute params, .fetch none none]
  obtain ⟨visible, stay⟩ := blanks_pass_untouched made history
  exact ⟨first, _, _, made, history, by decide +kernel, visible, stay⟩

end Statement

end SealedColumns
