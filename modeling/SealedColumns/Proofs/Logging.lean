import SealedColumns.Proofs.Execution
import SealedColumns.Proofs.SealedValues

/-!
What is logged. An execution tells how many parameters there are and how many of them it
encrypted: as many as there are visited keys under which something stands that is not
blank. Decryption tells the name of each listed column whose cell is not blank, in order,
row after row. So which names there are and where the blanks are settles what is logged.
-/

namespace SealedColumns

theorem Trace.events_append (before after : Trace) :
    events (before ++ after) = before.events ++ after.events :=
  List.filterMap_append

/-! Encrypting. -/

theorem NameMap.size_eq_of_contains {α β : Type} {left : NameMap α} {right : NameMap β}
    (same : ∀ name, left.contains name = right.contains name) : left.size = right.size := by
  have members : ∀ name, name ∈ left.names ↔ name ∈ right.names := by
    intro name
    rw [← contains_iff, ← contains_iff, same]
  have permuted : left.names.Perm right.names :=
    (List.perm_ext_iff_of_nodup left.nodup_names right.nodup_names).mpr members
  simpa [names, size] using permuted.length_eq

section Sealing
variable {cipher : Cipher}

/-- The values that a pass encrypts are counted before it starts. -/
theorem count_sealTargets {targets : List Target} {params : Parameters} {draws count : Nat}
    (distinct : (targets.map (·.key)).Nodup)
    (done : (sealTargets cipher targets params draws).result = .ok count) :
    count = targets.countP fun target => params.shows target.key := by
  rw [(replaces_of_ok distinct done).1, dueKeys, ← List.countP_eq_length_filter, List.countP_map]
  rfl

end Sealing

/-! Decrypting. -/

section Opening
variable {row : Type} [Cells row] {valid : row → Prop} {cipher : Option Cipher}
  {columns : List String}

/-- The events of a pass over a row. -/
def logged (columns : List String) (cells : row) : List Event :=
  (columns.filter (Cells.shows cells)).map .decrypted

theorem logged_cons_of_shows {cells : row} {column : String} (shows : Cells.shows cells column)
    (rest : List String) :
    logged (column :: rest) cells = .decrypted column :: logged rest cells := by
  rw [logged, List.filter_cons_of_pos shows]
  rfl

theorem logged_cons_of_not_shows {cells : row} {column : String}
    (hides : ¬ Cells.shows cells column) (rest : List String) :
    logged (column :: rest) cells = logged rest cells := by
  rw [logged, List.filter_cons_of_neg hides]
  rfl

theorem logged_put (laws : Cells.Laws valid) {cells : row} (coherent : valid cells)
    {column : String} (absent : column ∉ columns) (value : Value) :
    logged columns (Cells.put cells column value) = logged columns cells :=
  congrArg (List.map _) (laws.filter_shows_put coherent absent value)

theorem events_openCells (laws : Cells.Laws valid) {cells : row} (coherent : valid cells)
    (distinct : columns.Nodup) (done : (openCells cipher columns cells).result = .ok ()) :
    (openCells cipher columns cells).trace.events = logged columns cells := by
  fun_induction openCells cipher columns cells with
  | case1 => rfl
  | case4 | case5 | case6 => contradiction
  | case2 cipher first rest cells absent ih =>
      rw [logged_cons_of_not_shows (by simp [Cells.shows, absent])]
      exact ih coherent (List.nodup_cons.mp distinct).2 done
  | case3 cipher first rest cells value found blank ih =>
      rw [logged_cons_of_not_shows (by simp [Cells.shows, found, blank])]
      exact ih coherent (List.nodup_cons.mp distinct).2 done
  | case7 first rest cells value found visible cipher ciphertext read plaintext opened later ih =>
      obtain ⟨absent, tail⟩ := List.nodup_cons.mp distinct
      have coherentLater := laws.valid_put first (.text (Text.withoutPadding plaintext)) coherent
      -- The cell that was changed is not looked up again, so the rest shows what it showed.
      rw [logged_cons_of_shows (by simp [Cells.shows, found, visible]),
        ← logged_put laws coherent absent, ← ih coherentLater tail done]
      rfl

theorem events_openRows {rows : List row} (done : (openRows cipher columns rows).result = .ok ()) :
    (openRows cipher columns rows).trace.events =
      rows.flatMap fun cells => (openCells cipher columns cells).trace.events := by
  induction rows with
  | nil => rfl
  | cons first rest ih =>
      obtain ⟨here, each⟩ := List.forall_mem_cons.mp ((openRows_ok_iff _).mp done)
      rw [openRows, here, List.flatMap_cons, ← ih ((openRows_ok_iff _).mpr each)]
      exact Trace.events_append _ _

theorem events_openGroups {groups : List KeyedRows}
    (done : (openGroups cipher columns groups).result = .ok ()) :
    (openGroups cipher columns groups).trace.events =
      groups.flatMap fun group => (openRows cipher columns group.rows).trace.events := by
  induction groups with
  | nil => rfl
  | cons first rest ih =>
      obtain ⟨here, each⟩ := List.forall_mem_cons.mp ((openGroups_ok_iff _).mp done)
      rw [openGroups, (openRows_ok_iff _).mpr here, List.flatMap_cons,
        ← ih ((openGroups_ok_iff _).mpr each)]
      exact Trace.events_append _ _

theorem openRowSet_ok_iff (set : RowSet) :
    (openRowSet cipher columns set).result = .ok () ↔
      ∀ cells ∈ set.rows, (openCells cipher columns cells).result = .ok () := by
  cases set with
  | flat rows => exact openRows_ok_iff rows
  | grouped groups =>
      refine (openGroups_ok_iff groups).trans ?_
      simp only [RowSet.rows, List.mem_flatMap]
      constructor
      · rintro each cells ⟨group, present, member⟩
        exact each group present cells member
      · exact fun each group present cells member => each cells ⟨group, present, member⟩

theorem events_openRowSet {set : RowSet} (coherent : ∀ cells ∈ set.rows, cells.Unaliased)
    (distinct : columns.Nodup) (done : (openRowSet cipher columns set).result = .ok ()) :
    (openRowSet cipher columns set).trace.events = set.rows.flatMap (logged columns) := by
  have each := (openRowSet_ok_iff set).mp done
  have passes : (openRowSet cipher columns set).trace.events =
      set.rows.flatMap fun cells => (openCells cipher columns cells).trace.events := by
    cases set with
    | flat rows => exact events_openRows done
    | grouped groups =>
        refine (events_openGroups done).trans ?_
        rw [RowSet.rows, List.flatMap_assoc]
        apply List.flatMap_congr
        intro group present
        have through := (openGroups_ok_iff groups).mp done group present
        exact events_openRows ((openRows_ok_iff group.rows).mpr through)
  rw [passes]
  exact List.flatMap_congr fun cells member =>
    events_openCells ShapedRow.laws (coherent cells member) distinct (each cells member)

theorem events_readRows {α : Type} [OfRow α] {rows : List Row} {reads : List α}
    (coherent : ∀ row ∈ rows, row.header.Unaliased) (distinct : columns.Nodup)
    (done : (Statement.readRows cipher columns rows).1 = .ok reads) :
    (Statement.readRows cipher columns rows : Except Error (List α) × Trace).2.events =
      rows.flatMap (logged columns) := by
  induction rows generalizing reads with
  | nil => rfl
  | cons first rest ih =>
      obtain ⟨here, later⟩ := List.forall_mem_cons.mp coherent
      unfold Statement.readRows at done ⊢
      dsimp only at done ⊢
      cases opens : (openCells cipher columns first).result with
      | error cause =>
          rw [opens] at done
          contradiction
      | ok =>
          rw [opens] at done
          dsimp only at done ⊢
          cases read : (OfRow.ofRow (openCells cipher columns first).row : Except Error α) with
          | error cause =>
              rw [read] at done
              contradiction
          | ok value =>
              rw [read] at done
              obtain ⟨others, doneLater, -⟩ := exists_ok_of_map done
              rw [List.flatMap_cons, ← events_openCells Row.laws here distinct opens,
                ← ih later doneLater]
              exact Trace.events_append _ _

end Opening

namespace Statement

variable {state handle α β : Type} {client : Client state handle} {world : World state}
  {statement : Statement handle}

section Succeeds
variable {step : Step state handle α} {next : α → Except Error β × Trace}

/-- Whether a step gave something, and not an error. -/
def Step.Succeeds (step : Step state handle α) : Prop := ∃ given, step.result = .ok given

theorem Step.succeeds_of_isOk (done : step.result.isOk = true) : step.Succeeds := by
  unfold Succeeds
  cases result : step.result with
  | error cause =>
      rw [result] at done
      contradiction
  | ok given => exact ⟨given, rfl⟩

theorem Step.Succeeds.of_map {f : α → β} (done : (step.map f).Succeeds) : step.Succeeds := by
  obtain ⟨_, done⟩ := done
  obtain ⟨given, here, -⟩ := exists_ok_of_map done
  exact ⟨given, here⟩

theorem Step.Succeeds.of_andThen (done : (step.andThen next).Succeeds) : step.Succeeds := by
  obtain ⟨_, done⟩ := done
  unfold andThen at done
  cases result : step.result with
  | error cause =>
      rw [result] at done
      contradiction
  | ok first => exact ⟨first, result⟩

theorem Step.andThen_of_ok {first : α} (gave : step.result = .ok first) :
    step.andThen next =
      ⟨(next first).1, step.statement, step.world, step.trace ++ (next first).2⟩ := by
  rw [andThen, gave]

end Succeeds

theorem events_prepare (sql : String) (cipher : Option Cipher) (layout : RowLayout) :
    (prepare client world sql cipher layout).trace.events =
      [.preparing (Placeholder.scan sql).occurrences.length
        (Placeholder.rename sql).replacements.length] := by
  unfold prepare
  dsimp only
  split <;> rfl

/-- How many values are encrypted, of parameters that are expanded. -/
def encryptable (statement : Statement handle) (params : Parameters) : Nat :=
  match statement.cipher with
  | none => 0
  | some _ => (targetsOf statement.sealedColumns statement.expansions).countP fun target =>
      params.shows target.key

theorem events_sealing (draws : Nat) (params : Parameters) :
    (statement.sealing draws params).trace.events = [] := by
  apply List.filterMap_eq_nil_iff.mpr
  intro action member
  obtain ⟨plaintext, rfl⟩ := mem_trace_sealing member
  rfl

theorem size_sealing (draws : Nat) (params : Parameters) :
    (statement.sealing draws params).params.size = (statement.expansions.expand params).size := by
  unfold sealing sealParameters
  split
  · rfl
  · exact NameMap.size_eq_of_contains (contains_sealTargets _ _ _)

theorem count_sealing {draws count : Nat} {params : Parameters}
    (done : (statement.sealing draws params).result = .ok count) :
    count = statement.encryptable (statement.expansions.expand params) := by
  unfold sealing sealParameters at done
  unfold encryptable
  cases ciphered : statement.cipher with
  | none =>
      rw [ciphered] at done
      exact (Except.ok.inj done).symm
  | some cipher =>
      rw [ciphered] at done
      exact count_sealTargets (nodup_targetsOf _ _) done

theorem events_execute {params : Parameters}
    (done : (statement.execute client world params).Succeeds) :
    (statement.execute client world params).trace.events =
      [.executing (statement.expansions.expand params).size
        (statement.encryptable (statement.expansions.expand params))] := by
  have silent : (statement.sealing world.draws params).trace.events = [] := events_sealing _ _
  obtain ⟨answer, done⟩ := done
  revert done
  unfold execute
  split
  · intro refused
    cases refused
  · dsimp only
    rw [← sealing]
    cases sealed : (statement.sealing world.draws params).result with
    | error cause =>
        intro refused
        cases refused
    | ok count =>
        dsimp only
        split
        · intro refused
          cases refused
        · intro _
          dsimp only
          rw [Trace.events_append, silent, size_sealing, count_sealing sealed]
          rfl

theorem events_nextRow : (nextRow client world statement).trace.events = [] := by
  unfold nextRow
  split
  · rfl
  · dsimp only
    split <;> rfl

theorem events_remainingRows : (remainingRows client world statement).trace.events = [] := by
  unfold remainingRows
  split
  · rfl
  · dsimp only
    split <;> rfl

/-! The events of a fetch, told from what the client gave. -/

section Fetch
variable {columns : Option (List String)} {layout : Option RowLayout} {row? : Option Row}
  {results : ResultSet}

theorem events_fetch
    (taken : (nextRow client world statement).result = .ok row?)
    (coherent : ∀ cells ∈ row?.toList.map (ShapedRow.ofRow (statement.layoutFor layout).kind),
      cells.Unaliased)
    (distinct : (statement.columnsFor columns).Nodup)
    (done : (statement.fetch client world columns layout).Succeeds) :
    (statement.fetch client world columns layout).trace.events =
      (row?.toList.map (ShapedRow.ofRow (statement.layoutFor layout).kind)).flatMap
        (logged (statement.columnsFor columns)) := by
  obtain ⟨given, done⟩ := done
  rw [fetch, Step.andThen_of_ok taken] at done ⊢
  dsimp only
  rw [Trace.events_append, events_nextRow, List.nil_append]
  cases row? with
  | none => rfl
  | some row =>
      obtain ⟨⟨⟩, opens, -⟩ := exists_ok_of_map done
      have unaliased := coherent _ (List.mem_singleton_self _)
      exact (events_openCells ShapedRow.laws unaliased distinct opens).trans
        (List.flatMap_singleton _ _).symm

theorem events_fetchAs [OfRow α]
    (taken : (nextRow client world statement).result = .ok row?)
    (coherent : ∀ row ∈ row?.toList, row.header.Unaliased)
    (distinct : (statement.columnsFor columns).Nodup)
    (done : (statement.fetchAs client world columns : Step state handle (Option α)).Succeeds) :
    (statement.fetchAs client world columns : Step state handle (Option α)).trace.events =
      row?.toList.flatMap (logged (statement.columnsFor columns)) := by
  obtain ⟨given, done⟩ := done
  rw [fetchAs, Step.andThen_of_ok taken] at done ⊢
  dsimp only at done ⊢
  rw [Trace.events_append, events_nextRow, List.nil_append]
  cases row? with
  | none => rfl
  | some row =>
      dsimp only at done ⊢
      rw [Option.toList_some, List.flatMap_singleton]
      cases opens : (openCells statement.cipher (statement.columnsFor columns) row).result with
      | error cause =>
          rw [opens] at done
          contradiction
      | ok =>
          exact events_openCells Row.laws (coherent row (List.mem_singleton_self row)) distinct
            opens

theorem events_fetchRest
    (taken : (remainingRows client world statement).result = .ok results)
    (coherent : ∀ cells ∈ (results.shaped (statement.layoutFor layout)).rows, cells.Unaliased)
    (distinct : (statement.columnsFor columns).Nodup)
    (done : (statement.fetchRest client world columns layout).Succeeds) :
    (statement.fetchRest client world columns layout).trace.events =
      (results.shaped (statement.layoutFor layout)).rows.flatMap
        (logged (statement.columnsFor columns)) := by
  obtain ⟨given, done⟩ := done
  rw [fetchRest, Step.andThen_of_ok taken] at done ⊢
  dsimp only
  rw [Trace.events_append, events_remainingRows, List.nil_append]
  obtain ⟨⟨⟩, opens, -⟩ := exists_ok_of_map done
  exact events_openRowSet coherent distinct opens

theorem events_fetchRestAs [OfRow α]
    (taken : (remainingRows client world statement).result = .ok results)
    (coherent : ∀ row ∈ results.rows, row.header.Unaliased)
    (distinct : statement.sealedColumns.Nodup)
    (done : (statement.fetchRestAs client world : Step state handle (List α)).Succeeds) :
    (statement.fetchRestAs client world : Step state handle (List α)).trace.events =
      results.rows.flatMap (logged statement.sealedColumns) := by
  obtain ⟨given, done⟩ := done
  rw [fetchRestAs, Step.andThen_of_ok taken] at done ⊢
  dsimp only
  rw [Trace.events_append, events_remainingRows, List.nil_append]
  exact events_readRows coherent distinct done

end Fetch

end Statement

end SealedColumns
