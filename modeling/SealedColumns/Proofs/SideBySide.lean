import SealedColumns.Proofs.Alike
import SealedColumns.Sample.Person

/-!
Two runs side by side that differ in the values only. Where one binds or stores a blank
value so does the other, and rows are in one group here if and only if they are there. All
that is done must go through, on both sides. Then nobody can tell from the log which of
the two runs it was: neither values nor ciphertexts nor the ciphers leave a trace in it.
-/

namespace SealedColumns

namespace Statement

variable {state handle otherState otherHandle : Type}

/-- The same settings, ciphers apart. Both have a cipher, or neither has. -/
structure Alike (statement : Statement handle) (twin : Statement otherHandle) : Prop where
  table : statement.expansions = twin.expansions
  columns : statement.sealedColumns = twin.sealedColumns
  distinct : statement.sealedColumns.Nodup
  ciphered : statement.cipher.isSome = twin.cipher.isSome
  layout : statement.layout = twin.layout

theorem Alike.of_sameSettings {statement after : Statement handle}
    {twin afterTwin : Statement otherHandle} (alike : statement.Alike twin)
    (kept : SameSettings statement after) (keptTwin : SameSettings twin afterTwin) :
    after.Alike afterTwin := by
  obtain ⟨_, _, rfl⟩ := kept
  obtain ⟨_, _, rfl⟩ := keptTwin
  exact ⟨alike.table, alike.columns, alike.distinct, alike.ciphered, alike.layout⟩

end Statement

/-- The same operation on other values: parameters that are alike, and any ciphers. Columns
    given for one fetch are listed once. -/
inductive Operation.Alike : Operation → Operation → Prop where
  | encryptColumns (columns : List String) {cipher other : Option Cipher}
      (ciphered : cipher.isSome = other.isSome) :
      Alike (.encryptColumns columns cipher) (.encryptColumns columns other)
  | withCipher {cipher other : Option Cipher} (ciphered : cipher.isSome = other.isSome) :
      Alike (.withCipher cipher) (.withCipher other)
  | withLayout (layout : RowLayout) : Alike (.withLayout layout) (.withLayout layout)
  | execute {left right : Parameters} (params : left.Alike right) :
      Alike (.execute left) (.execute right)
  | fetch {columns : Option (List String)} (distinct : ∀ listed ∈ columns, listed.Nodup)
      (layout : Option RowLayout) : Alike (.fetch columns layout) (.fetch columns layout)
  | fetchAs {columns : Option (List String)} (distinct : ∀ listed ∈ columns, listed.Nodup) :
      Alike (.fetchAs columns) (.fetchAs columns)
  | fetchRest {columns : Option (List String)} (distinct : ∀ listed ∈ columns, listed.Nodup)
      (layout : Option RowLayout) : Alike (.fetchRest columns layout) (.fetchRest columns layout)
  | fetchRestAs : Alike .fetchRestAs .fetchRestAs
  | close : Alike .close .close

namespace Statement

variable {state handle otherState otherHandle : Type}

section Twins
variable {client : Client state handle} {world : World state} {statement : Statement handle}
  {mirror : Client otherState otherHandle} {beyond : World otherState}
  {twin : Statement otherHandle}

/-- The next row is alike on both sides, or there is none on either. -/
def NextAlike (client : Client state handle) (world : World state) (statement : Statement handle)
    (mirror : Client otherState otherHandle) (beyond : World otherState)
    (twin : Statement otherHandle) : Prop :=
  ∀ row? twin?, (nextRow client world statement).result = .ok row? →
    (nextRow mirror beyond twin).result = .ok twin? → Option.Rel Row.Alike row? twin?

/-- The rows that are left are alike on both sides, and if they are to be grouped they fall
    into the same groups. -/
def RestAlike (grouped : Bool) (client : Client state handle) (world : World state)
    (statement : Statement handle) (mirror : Client otherState otherHandle)
    (beyond : World otherState) (twin : Statement otherHandle) : Prop :=
  ∀ results mirrored, (remainingRows client world statement).result = .ok results →
    (remainingRows mirror beyond twin).result = .ok mirrored →
      results.Alike mirrored ∧ (grouped = true → SameGroups results.rows mirrored.rows)

theorem Alike.encryptable_eq (alike : statement.Alike twin) {left right : Parameters}
    (params : left.Alike right) : statement.encryptable left = twin.encryptable right := by
  have shows : left.shows = right.shows := funext params.shows_eq
  have ciphered := alike.ciphered
  unfold encryptable
  rw [alike.columns, alike.table, shows]
  cases here : statement.cipher with
  | none =>
      cases there : twin.cipher with
      | none => rfl
      | some cipher => simp [here, there] at ciphered
  | some cipher =>
      cases there : twin.cipher with
      | none => simp [here, there] at ciphered
      | some other => rfl

theorem Alike.events_execute_eq (alike : statement.Alike twin) {left right : Parameters}
    (params : left.Alike right) (done : (statement.execute client world left).Succeeds)
    (mirrored : (twin.execute mirror beyond right).Succeeds) :
    (statement.execute client world left).trace.events =
      (twin.execute mirror beyond right).trace.events := by
  have expanded := Placeholder.alike_expand statement.expansions params
  rw [events_execute done, events_execute mirrored, ← alike.table, expanded.size_eq,
    alike.encryptable_eq expanded]

theorem Alike.columnsFor_eq (alike : statement.Alike twin) (columns : Option (List String)) :
    statement.columnsFor columns = twin.columnsFor columns := by
  rw [columnsFor, alike.columns, columnsFor]

theorem Alike.nodup_columnsFor (alike : statement.Alike twin) {columns : Option (List String)}
    (distinct : ∀ listed ∈ columns, listed.Nodup) : (twin.columnsFor columns).Nodup := by
  rw [← alike.columnsFor_eq]
  cases columns with
  | none => exact alike.distinct
  | some listed => exact distinct listed rfl

theorem Alike.layoutFor_eq (alike : statement.Alike twin) (layout : Option RowLayout) :
    statement.layoutFor layout = twin.layoutFor layout := by
  rw [layoutFor, alike.layout, layoutFor]

theorem forall₂_toList {row? twin? : Option Row} (alike : Option.Rel Row.Alike row? twin?) :
    List.Forall₂ Row.Alike row?.toList twin?.toList := by
  cases alike with
  | none => exact .nil
  | some row => exact .cons row .nil

section Fetch
variable {columns : Option (List String)} {layout : Option RowLayout}

theorem Alike.events_fetch_eq (alike : statement.Alike twin)
    (distinct : ∀ listed ∈ columns, listed.Nodup)
    (gives : NextAlike client world statement mirror beyond twin)
    (done : (statement.fetch client world columns layout).Succeeds)
    (mirrored : (twin.fetch mirror beyond columns layout).Succeeds) :
    (statement.fetch client world columns layout).trace.events =
      (twin.fetch mirror beyond columns layout).trace.events := by
  obtain ⟨row?, taken⟩ := done.of_andThen
  obtain ⟨twin?, takenTwin⟩ := mirrored.of_andThen
  have rows := forall₂_toList (gives row? twin? taken takenTwin)
  have shapes : List.Forall₂ ShapedRow.Alike
      (row?.toList.map (ShapedRow.ofRow (statement.layoutFor layout).kind))
      (twin?.toList.map (ShapedRow.ofRow (twin.layoutFor layout).kind)) := by
    rw [alike.layoutFor_eq, List.forall₂_map_left_iff, List.forall₂_map_right_iff]
    exact rows.imp fun _ _ row => .ofRow _ row
  obtain ⟨here, there⟩ := unaliased_of_shapes shapes
  have listed := alike.nodup_columnsFor distinct
  rw [events_fetch taken here (alike.columnsFor_eq _ ▸ listed) done,
    events_fetch takenTwin there listed mirrored, alike.columnsFor_eq]
  exact flatMap_logged_eq (fun _ _ shaped => logged_congr (ShapedRow.Alike.get? shaped) _) shapes

theorem Alike.events_fetchAs_eq {α β : Type} [OfRow α] [OfRow β] (alike : statement.Alike twin)
    (distinct : ∀ listed ∈ columns, listed.Nodup)
    (gives : NextAlike client world statement mirror beyond twin)
    {step : Step state handle (Option α)} {mirrored : Step otherState otherHandle (Option β)}
    (fetches : statement.fetchAs client world columns = step)
    (fetchesTwin : twin.fetchAs mirror beyond columns = mirrored)
    (done : step.Succeeds) (doneTwin : mirrored.Succeeds) :
    step.trace.events = mirrored.trace.events := by
  subst fetches fetchesTwin
  obtain ⟨row?, taken⟩ := done.of_andThen
  obtain ⟨twin?, takenTwin⟩ := doneTwin.of_andThen
  have rows := forall₂_toList (gives row? twin? taken takenTwin)
  obtain ⟨here, there⟩ := unaliased_of_rows rows
  have listed := alike.nodup_columnsFor distinct
  rw [events_fetchAs taken here (alike.columnsFor_eq _ ▸ listed) done,
    events_fetchAs takenTwin there listed doneTwin, alike.columnsFor_eq]
  exact flatMap_logged_eq (fun _ _ row => logged_congr (Row.Alike.get? row) _) rows

theorem Alike.events_fetchRest_eq (alike : statement.Alike twin)
    (distinct : ∀ listed ∈ columns, listed.Nodup)
    (gives : RestAlike (statement.layoutFor layout).grouped client world statement
      mirror beyond twin)
    (done : (statement.fetchRest client world columns layout).Succeeds)
    (mirrored : (twin.fetchRest mirror beyond columns layout).Succeeds) :
    (statement.fetchRest client world columns layout).trace.events =
      (twin.fetchRest mirror beyond columns layout).trace.events := by
  obtain ⟨results, taken⟩ := done.of_andThen
  obtain ⟨others, takenTwin⟩ := mirrored.of_andThen
  obtain ⟨rows, groups⟩ := gives results others taken takenTwin
  have shapes := alike_shaped rows groups
  obtain ⟨here, there⟩ := unaliased_of_shapes shapes
  have listed := alike.nodup_columnsFor distinct
  rw [events_fetchRest taken here (alike.columnsFor_eq _ ▸ listed) done,
    events_fetchRest takenTwin (alike.layoutFor_eq layout ▸ there) listed mirrored,
    alike.columnsFor_eq, ← alike.layoutFor_eq]
  exact flatMap_logged_eq (fun _ _ shaped => logged_congr (ShapedRow.Alike.get? shaped) _) shapes

theorem Alike.events_fetchRestAs_eq {α β : Type} [OfRow α] [OfRow β]
    (alike : statement.Alike twin)
    (gives : RestAlike false client world statement mirror beyond twin)
    {step : Step state handle (List α)} {mirrored : Step otherState otherHandle (List β)}
    (fetches : statement.fetchRestAs client world = step)
    (fetchesTwin : twin.fetchRestAs mirror beyond = mirrored)
    (done : step.Succeeds) (doneTwin : mirrored.Succeeds) :
    step.trace.events = mirrored.trace.events := by
  subst fetches fetchesTwin
  obtain ⟨results, taken⟩ := done.of_andThen
  obtain ⟨others, takenTwin⟩ := doneTwin.of_andThen
  have rows := (gives results others taken takenTwin).1.rows
  obtain ⟨here, there⟩ := unaliased_of_rows rows
  rw [events_fetchRestAs taken here alike.distinct done,
    events_fetchRestAs takenTwin there (alike.columns ▸ alike.distinct) doneTwin, alike.columns]
  exact flatMap_logged_eq (fun _ _ row => logged_congr (Row.Alike.get? row) _) rows

end Fetch

/-- What the clients give for the operation is alike. -/
def GivesAlike (client : Client state handle) (world : World state) (statement : Statement handle)
    (mirror : Client otherState otherHandle) (beyond : World otherState)
    (twin : Statement otherHandle) : Operation → Prop
  | .fetch _ _ | .fetchAs _ => NextAlike client world statement mirror beyond twin
  | .fetchRest _ layout =>
      RestAlike (statement.layoutFor layout).grouped client world statement mirror beyond twin
  | .fetchRestAs => RestAlike false client world statement mirror beyond twin
  | .encryptColumns _ _ | .withCipher _ | .withLayout _ | .execute _ | .close => True

section Perform
variable {α β : Type} [OfRow α] [OfRow β] {operation other : Operation}

theorem Alike.after_perform (alike : statement.Alike twin) (asked : operation.Alike other) :
    (statement.perform client world operation : Step state handle (Answer α)).statement.Alike
      (twin.perform mirror beyond other :
        Step otherState otherHandle (Answer β)).statement := by
  cases asked with
  | encryptColumns columns ciphered =>
      refine ⟨alike.table, rfl, nodup_eraseDups columns, ?_, alike.layout⟩
      rw [perform, perform, encryptColumns, encryptColumns, Option.isSome_or, Option.isSome_or,
        ciphered, alike.ciphered]
  | withCipher ciphered =>
      exact ⟨alike.table, alike.columns, alike.distinct, ciphered, alike.layout⟩
  | withLayout layout =>
      exact ⟨alike.table, alike.columns, alike.distinct, alike.ciphered, rfl⟩
  | close => exact ⟨alike.table, alike.columns, alike.distinct, alike.ciphered, alike.layout⟩
  | execute params =>
      exact alike.of_sameSettings (sameSettings_execute _) (sameSettings_execute _)
  | fetch | fetchAs =>
      refine alike.of_sameSettings ?_ ?_ <;>
        simpa [perform, Statement.fetch, Statement.fetchAs] using sameSettings_nextRow
  | fetchRest | fetchRestAs =>
      refine alike.of_sameSettings ?_ ?_ <;>
        simpa [perform, Statement.fetchRest, Statement.fetchRestAs] using
          sameSettings_remainingRows

theorem Alike.events_perform_eq (alike : statement.Alike twin) (asked : operation.Alike other)
    (gives : GivesAlike client world statement mirror beyond twin operation)
    {step : Step state handle (Answer α)} {mirrored : Step otherState otherHandle (Answer β)}
    (performs : statement.perform client world operation = step)
    (performsTwin : twin.perform mirror beyond other = mirrored)
    (done : step.Succeeds) (doneTwin : mirrored.Succeeds) :
    step.trace.events = mirrored.trace.events := by
  subst performs performsTwin
  cases asked with
  | encryptColumns | withCipher | withLayout | close => rfl
  | execute params => exact alike.events_execute_eq params done.of_map doneTwin.of_map
  | fetch distinct layout =>
      exact alike.events_fetch_eq distinct gives done.of_map doneTwin.of_map
  | fetchAs distinct =>
      exact alike.events_fetchAs_eq distinct gives rfl rfl done.of_map doneTwin.of_map
  | fetchRest distinct layout =>
      exact alike.events_fetchRest_eq distinct gives done.of_map doneTwin.of_map
  | fetchRestAs => exact alike.events_fetchRestAs_eq gives rfl rfl done.of_map doneTwin.of_map

end Perform

theorem alike_of_prepare {sql : String} {layout : RowLayout} {cipher other : Option Cipher}
    (ciphered : cipher.isSome = other.isSome)
    (made : (prepare client world sql cipher layout).result = .ok statement)
    (madeTwin : (prepare mirror beyond sql other layout).result = .ok twin) :
    statement.Alike twin := by
  unfold prepare at made madeTwin
  dsimp only at made madeTwin
  split at made
  · contradiction
  · split at madeTwin
    · contradiction
    · obtain rfl := Except.ok.inj made
      obtain rfl := Except.ok.inj madeTwin
      exact ⟨rfl, rfl, List.nodup_nil, ciphered, rfl⟩

end Twins

/-- Two runs that do the same on other values. In each, statements are prepared and operated
    on one after another; the two statements of a pair have the same text. The worlds are as
    others left them. -/
inductive SideBySide (client : Client state handle) (mirror : Client otherState otherHandle) :
    List (Statement handle × Statement otherHandle) → Trace → Trace → Prop where
  | start : SideBySide client mirror [] [] []
  | prepared {pairs : List (Statement handle × Statement otherHandle)} {trace mirrored : Trace}
      (past : SideBySide client mirror pairs trace mirrored) (sql : String) (layout : RowLayout)
      {cipher other : Option Cipher} (ciphered : cipher.isSome = other.isSome)
      (world : World state) (beyond : World otherState)
      {statement : Statement handle} {twin : Statement otherHandle}
      (made : (prepare client world sql cipher layout).result = .ok statement)
      (madeTwin : (prepare mirror beyond sql other layout).result = .ok twin) :
      SideBySide client mirror (pairs ++ [(statement, twin)])
        (trace ++ (prepare client world sql cipher layout).trace)
        (mirrored ++ (prepare mirror beyond sql other layout).trace)
  | performed {before after : List (Statement handle × Statement otherHandle)}
      {statement : Statement handle} {twin : Statement otherHandle} {trace mirrored : Trace}
      (past : SideBySide client mirror (before ++ (statement, twin) :: after) trace mirrored)
      {operation other : Operation} (asked : operation.Alike other) {α β : Type} [OfRow α]
      [OfRow β] (world : World state) (beyond : World otherState)
      (gives : GivesAlike client world statement mirror beyond twin operation)
      {step : Step state handle (Answer α)} {mirroredStep : Step otherState otherHandle (Answer β)}
      (performs : statement.perform client world operation = step)
      (performsTwin : twin.perform mirror beyond other = mirroredStep)
      (done : step.Succeeds) (doneTwin : mirroredStep.Succeeds) :
      SideBySide client mirror (before ++ (step.statement, mirroredStep.statement) :: after)
        (trace ++ step.trace) (mirrored ++ mirroredStep.trace)

section Runs
variable {client : Client state handle} {mirror : Client otherState otherHandle}
  {pairs : List (Statement handle × Statement otherHandle)} {trace mirrored : Trace}

theorem alike_of_sideBySide (runs : SideBySide client mirror pairs trace mirrored) :
    ∀ pair ∈ pairs, pair.1.Alike pair.2 := by
  induction runs with
  | start => simp
  | prepared past sql layout ciphered world beyond made madeTwin ih =>
      intro pair member
      rcases List.mem_append.mp member with old | new
      · exact ih pair old
      · obtain rfl := List.mem_singleton.mp new
        exact alike_of_prepare ciphered made madeTwin
  | performed past asked world beyond gives performs performsTwin done doneTwin ih =>
      intro pair member
      subst performs performsTwin
      -- Only the pair that was operated on has changed.
      have alike := ih _ (List.mem_append_right _ List.mem_cons_self)
      rcases List.mem_append.mp member with old | new
      · exact ih pair (List.mem_append_left _ old)
      · rcases List.mem_cons.mp new with rfl | later
        · exact alike.after_perform asked
        · exact ih pair (List.mem_append_right _ (List.mem_cons_of_mem _ later))

/-- Both runs log the same. Of what is bound and of what the clients store, only the names, the
    blanks and the groups could matter, and in these the runs agree; which ciphers there are
    does not matter, as long as there are ciphers on both sides or on neither. -/
theorem events_of_sideBySide (runs : SideBySide client mirror pairs trace mirrored) :
    trace.events = mirrored.events := by
  induction runs with
  | start => rfl
  | prepared past sql layout ciphered world beyond made madeTwin ih =>
      rw [Trace.events_append, Trace.events_append, events_prepare, events_prepare, ih]
  | performed past asked world beyond gives performs performsTwin done doneTwin ih =>
      have alike := alike_of_sideBySide past _ (List.mem_append_right _ List.mem_cons_self)
      rw [Trace.events_append, Trace.events_append, ih,
        alike.events_perform_eq asked gives performs performsTwin done doneTwin]

/-- Two employees of one department, of whom the first has an encrypted number. -/
def payroll (department ciphertext : String) : Sample.Script :=
  ⟨some ["dept", "ssn"],
    [.ofNames ["dept", "ssn"] [.text department, .text ciphertext],
     .ofNames ["dept", "ssn"] [.text department, .null]],
    true, none, none, none, none⟩

theorem remainingRows_payroll {department ciphertext : String} {world : World Sample.ScriptState}
    {statement : Statement Nat} (able : statement.fetchFault? = none)
    (untouched : statement.handle = 0) :
    (remainingRows (payroll department ciphertext).client world statement).result =
      .ok ⟨(payroll department ciphertext).rows, 2, some (.ofNames ["dept", "ssn"])⟩ := by
  rw [remainingRows, able]
  dsimp only
  rw [untouched]
  rfl

theorem restAlike_payrolls {grouped : Bool} {world beyond : World Sample.ScriptState}
    {statement twin : Statement Nat} (able : statement.fetchFault? = none)
    (untouched : statement.handle = 0) (ableTwin : twin.fetchFault? = none)
    (untouchedTwin : twin.handle = 0) :
    RestAlike grouped (payroll "eng" "enc:1").client world statement
      (payroll "ops" "[23]").client beyond twin := by
  intro results mirrored taken takenTwin
  rw [remainingRows_payroll able untouched] at taken
  rw [remainingRows_payroll ableTwin untouchedTwin] at takenTwin
  obtain rfl := Except.ok.inj taken
  obtain rfl := Except.ok.inj takenTwin
  refine ⟨⟨rfl, .cons (.ofNames _ rfl) (.cons (.ofNames _ rfl) .nil)⟩, fun _ => ?_⟩
  -- All rows are of one department.
  intro pair member later after
  rcases List.mem_pair.mp member with rfl | rfl <;>
    rcases List.mem_pair.mp after with rfl | rfl <;> exact iff_of_true rfl rfl

theorem payrolls_log_alike :
    ∃ pairs trace mirrored,
      SideBySide (payroll "eng" "enc:1").client (payroll "ops" "[23]").client pairs trace mirrored
        ∧ trace.events = mirrored.events
        ∧ mirrored.events = [.preparing 2 2, .executing 2 2, .decrypted "ssn"]
        ∧ trace.cipherCalls ≠ mirrored.cipherCalls := by
  let here := (payroll "eng" "enc:1").client
  let there := (payroll "ops" "[23]").client
  let world := Sample.Script.start
  have nothing : SideBySide here there [] [] [] := .start
  -- The worlds do not matter to the script, which starts over at each execution.
  have prepared := nothing.prepared ":ssn, :ssn" ⟨.columns, true⟩
    (show (none : Option Cipher).isSome = (none : Option Cipher).isSome from rfl) world world
    rfl rfl
  have configured := SideBySide.performed (α := Sample.Person) (β := Sample.Person)
    (show SideBySide here there ([] ++ (_, _) :: []) _ _ from prepared)
    (.encryptColumns ["ssn"]
      (show (some (Sample.tag none)).isSome = (some Sample.reversing).isSome from rfl))
    world world trivial rfl rfl ⟨_, rfl⟩ ⟨_, rfl⟩
  have bound : Parameters.Alike (NameMap.ofList [("ssn", .text "1")])
      (NameMap.ofList [("ssn", .int 23)]) :=
    (show Parameters.Alike .empty .empty from fun _ => rfl).insert
      (show (Value.text "1").isBlank = (Value.int 23).isBlank from rfl) "ssn"
  have executed := SideBySide.performed (α := Sample.Person) (β := Sample.Person)
    (show SideBySide here there ([] ++ (_, _) :: []) _ _ from configured)
    (.execute bound) world world trivial rfl rfl
    (Step.succeeds_of_isOk (by decide +kernel)) (Step.succeeds_of_isOk (by decide +kernel))
  have fetched := SideBySide.performed (α := Sample.Person) (β := Sample.Person)
    (show SideBySide here there ([] ++ (_, _) :: []) _ _ from executed)
    (show Operation.Alike (.fetchRest none none) _ from .fetchRest (by simp) none) world world
    (restAlike_payrolls (by decide +kernel) (by decide +kernel) (by decide +kernel)
      (by decide +kernel))
    rfl rfl
    (Step.succeeds_of_isOk (by decide +kernel)) (Step.succeeds_of_isOk (by decide +kernel))
  refine ⟨_, _, _, fetched, events_of_sideBySide fetched, ?_, ?_⟩ <;> decide +kernel

end Runs

end Statement

end SealedColumns
