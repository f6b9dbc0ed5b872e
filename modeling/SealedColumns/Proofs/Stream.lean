import SealedColumns.Proofs.Buffered
import SealedColumns.Proofs.Lifecycle

/-!
The rows of one execution as a stream. Whatever is done with a statement between two
executions, every row is taken by one fetch, in order, and an operation that reads a row
fails only after it has taken it. Fetching all the rest is a loop over single rows.
-/

namespace SealedColumns

variable {database : Type}

/-! What an operation takes of the rows that are left. -/

namespace Operation

/-- Whether the rows of the last execution can still be fetched after the operation. -/
def KeepsStream : Operation → Prop
  | execute _ | close => False
  | _ => True

def takes (rows : List Row) : Operation → List Row
  | fetch _ _ | fetchAs _ => rows.take 1
  | fetchRest _ _ | fetchRestAs => rows
  | _ => []

def leaves (rows : List Row) : Operation → List Row
  | fetch _ _ | fetchAs _ => rows.tail
  | fetchRest _ _ | fetchRestAs => []
  | _ => rows

theorem takes_append_leaves (rows : List Row) (operation : Operation) :
    operation.takes rows ++ operation.leaves rows = rows := by
  cases operation with
  | fetch | fetchAs => cases rows <;> rfl
  | fetchRest | fetchRestAs => exact rows.append_nil
  | _ => rfl

/-- The rows that each of the operations takes. -/
def shares (rows : List Row) : List Operation → List (List Row)
  | [] => []
  | operation :: rest => operation.takes rows :: shares (operation.leaves rows) rest

theorem shares_append {rows left : List Row} {done : List Operation}
    (shared : (shares rows done).flatten ++ left = rows) (operation : Operation) :
    shares rows (done ++ [operation]) = shares rows done ++ [operation.takes left] := by
  induction done generalizing rows with
  | nil => rw [← shared]; rfl
  | cons first rest ih =>
      -- The others share what the first one leaves.
      have later : (shares (first.leaves rows) rest).flatten ++ left = first.leaves rows := by
        rw [shares, List.flatten_cons, List.append_assoc] at shared
        exact List.append_cancel_left (shared.trans (takes_append_leaves rows first).symm)
      rw [List.cons_append, shares, shares, ih later, List.cons_append]

end Operation

/-! What a buffering client gives. -/

section Handle

theorem ResultSet.rows_foldl_addRow (results : ResultSet) (rows : List Row) :
    (rows.foldl addRow results).rows = results.rows ++ rows := by
  induction rows generalizing results with
  | nil => exact (List.append_nil _).symm
  | cons row rest ih => rw [List.foldl_cons, ih, addRow, List.append_assoc]; rfl

theorem BufferedHandle.fetch_eq (handle : BufferedHandle) :
    handle.fetch = (handle.pending.head?, { handle with pending := handle.pending.tail }) := by
  cases handle with
  | mk sql columns pending affected => cases pending <;> rfl

theorem BufferedHandle.rows_fetchRest (handle : BufferedHandle) :
    handle.fetchRest.1.rows = handle.pending := by
  unfold fetchRest
  rw [ResultSet.rows_foldl_addRow]
  cases handle.columns <;> rfl

end Handle

namespace Statement

variable {α β : Type} {engine : Engine database}

/-- The statement once it has fetched, with the rows that it leaves. -/
def afterFetch (statement : Statement BufferedHandle) (left : List Row) :
    Statement BufferedHandle :=
  { statement with handle := { statement.handle with pending := left }, state := .fetching }

theorem nextRow_buffered {statement : Statement BufferedHandle}
    (able : statement.fetchFault? = none) (world : World database) :
    nextRow engine.client world statement =
      ⟨.ok statement.handle.pending.head?, statement.afterFetch statement.handle.pending.tail,
        world, [.client .fetch true]⟩ := by
  unfold nextRow
  rw [able]
  simp only [Engine.client, BufferedHandle.fetch_eq]
  rfl

theorem remainingRows_buffered {statement : Statement BufferedHandle}
    (able : statement.fetchFault? = none) (world : World database) :
    remainingRows engine.client world statement =
      ⟨.ok statement.handle.fetchRest.1, statement.afterFetch [], world,
        [.client .fetchRest true]⟩ := by
  unfold remainingRows
  rw [able]
  rfl

/-- What a pass over one row gives. -/
def shapedOutcome (statement : Statement BufferedHandle) (columns : Option (List String))
    (layout : Option RowLayout) (row : Row) : Except Error ShapedRow :=
  let pass := openCells statement.cipher (statement.columnsFor columns)
    (ShapedRow.ofRow (statement.layoutFor layout).kind row)
  pass.result.map fun _ => pass.row

def readOutcome [OfRow α] (statement : Statement BufferedHandle)
    (columns : Option (List String)) (row : Row) : Except Error α :=
  let pass := openCells statement.cipher (statement.columnsFor columns) row
  pass.result.bind fun _ => OfRow.ofRow pass.row

/-- The outcome for the next row, nothing if there is none. -/
def nextOutcome (outcome : Row → Except Error β) (rows : List Row) :
    Except Error (Option β) :=
  rows.head?.elim (.ok none) fun row => (outcome row).map some

section Step
variable {statement : Statement BufferedHandle}

/-- One row is taken, if there is one, before anything is made of it. -/
theorem andThen_nextRow (able : statement.fetchFault? = none) (world : World database)
    {next : Option Row → Except Error (Option β) × Trace} {outcome : Row → Except Error β}
    (drained : (next none).1 = .ok none)
    (given : ∀ row, (next (some row)).1 = (outcome row).map some) :
    let step := (nextRow engine.client world statement).andThen next
    step.result = nextOutcome outcome statement.handle.pending
      ∧ step.statement = statement.afterFetch statement.handle.pending.tail := by
  rw [nextRow_buffered able]
  refine ⟨?_, rfl⟩
  cases statement.handle.pending with
  | nil => exact drained
  | cons row rest => exact given row

theorem fetch_buffered (engine : Engine database) (able : statement.fetchFault? = none)
    (world : World database) (columns : Option (List String)) (layout : Option RowLayout) :
    let step := statement.fetch engine.client world columns layout
    step.result = nextOutcome (statement.shapedOutcome columns layout) statement.handle.pending
      ∧ step.statement = statement.afterFetch statement.handle.pending.tail := by
  refine andThen_nextRow able world rfl fun row => ?_
  unfold shapedOutcome
  dsimp only
  cases (openCells statement.cipher (statement.columnsFor columns)
    (ShapedRow.ofRow (statement.layoutFor layout).kind row)).result <;> rfl

theorem fetchAs_buffered [OfRow α] (engine : Engine database)
    (able : statement.fetchFault? = none) (world : World database)
    (columns : Option (List String)) :
    let step : Step database BufferedHandle (Option α) :=
      statement.fetchAs engine.client world columns
    step.result = nextOutcome (statement.readOutcome columns) statement.handle.pending
      ∧ step.statement = statement.afterFetch statement.handle.pending.tail := by
  refine andThen_nextRow able world rfl fun row => ?_
  unfold readOutcome
  dsimp only
  cases (openCells statement.cipher (statement.columnsFor columns) row).result <;> rfl

theorem openRows_eq_mapM {row : Type} [Cells row] (cipher : Option Cipher)
    (columns : List String) (rows : List row) :
    (openRows cipher columns rows).result.map (fun _ => (openRows cipher columns rows).row) =
      rows.mapM fun cells =>
        (openCells cipher columns cells).result.map fun _ =>
          (openCells cipher columns cells).row := by
  induction rows with
  | nil => rfl
  | cons first rest ih =>
      rw [List.mapM_cons, ← ih, openRows]
      cases (openCells cipher columns first).result with
      | error cause => rfl
      | ok => cases (openRows cipher columns rest).result <;> rfl

theorem readRows_eq_mapM [OfRow α] (cipher : Option Cipher) (columns : List String)
    (rows : List Row) :
    (readRows cipher columns rows : Except Error (List α) × Trace).1 =
      rows.mapM fun row =>
        (openCells cipher columns row).result.bind fun _ =>
          OfRow.ofRow (openCells cipher columns row).row := by
  induction rows with
  | nil => rfl
  | cons first rest ih =>
      rw [List.mapM_cons, ← ih, readRows]
      cases (openCells cipher columns first).result with
      | error cause => rfl
      | ok =>
          dsimp only [Except.bind]
          cases (OfRow.ofRow (openCells cipher columns first).row : Except Error α) with
          | error cause => rfl
          | ok read =>
              cases (readRows cipher columns rest : Except Error (List α) × Trace).1 <;> rfl

theorem fetchRest_buffered (engine : Engine database) (able : statement.fetchFault? = none)
    (world : World database) (columns : Option (List String)) (layout : Option RowLayout) :
    let step := statement.fetchRest engine.client world columns layout
    step.statement = statement.afterFetch []
      ∧ ((statement.layoutFor layout).grouped = false →
          step.result = Except.map .flat
            (statement.handle.pending.mapM (statement.shapedOutcome columns layout))) := by
  unfold fetchRest
  rw [remainingRows_buffered able]
  refine ⟨rfl, fun flat => ?_⟩
  have shaped : statement.handle.fetchRest.1.shaped (statement.layoutFor layout) =
      .flat (statement.handle.pending.map (.ofRow (statement.layoutFor layout).kind)) := by
    rw [ResultSet.shaped, flat, BufferedHandle.rows_fetchRest]
    rfl
  let rows := statement.handle.pending.map (ShapedRow.ofRow (statement.layoutFor layout).kind)
  let pass := openRows statement.cipher (statement.columnsFor columns) rows
  have passes : pass.result.map (fun _ => pass.row) =
      statement.handle.pending.mapM (statement.shapedOutcome columns layout) := by
    rw [openRows_eq_mapM, List.mapM_map]
    rfl
  rw [← passes]
  dsimp only [Step.andThen]
  rw [shaped]
  change pass.result.map (fun _ => RowSet.flat pass.row) = _
  cases pass.result <;> rfl

theorem fetchRestAs_buffered [OfRow α] (engine : Engine database)
    (able : statement.fetchFault? = none) (world : World database) :
    let step : Step database BufferedHandle (List α) :=
      statement.fetchRestAs engine.client world
    step.statement = statement.afterFetch []
      ∧ step.result = statement.handle.pending.mapM (statement.readOutcome none) := by
  unfold fetchRestAs
  rw [remainingRows_buffered able]
  refine ⟨rfl, ?_⟩
  dsimp only [Step.andThen]
  rw [BufferedHandle.rows_fetchRest]
  exact readRows_eq_mapM _ _ _

theorem left_of_afterFetch {step : Step database BufferedHandle α} {left : List Row}
    (taken : step.statement = statement.afterFetch left) :
    step.statement.fetchFault? = none ∧ step.statement.handle.pending = left := by
  rw [taken]
  exact ⟨rfl, rfl⟩

theorem leaves_of_performs {operation : Operation}
    {step : Step database BufferedHandle (Answer α)}
    (performed : Performs engine.client statement operation step)
    (keeps : operation.KeepsStream) (able : statement.fetchFault? = none) :
    step.statement.fetchFault? = none
      ∧ step.statement.handle.pending = operation.leaves statement.handle.pending := by
  obtain ⟨reads, world, rfl⟩ := performed
  cases operation with
  | encryptColumns | withCipher | withLayout => exact ⟨able, rfl⟩
  | execute | close => exact absurd keeps id
  | fetch columns layout =>
      exact left_of_afterFetch (fetch_buffered engine able world columns layout).2
  | fetchAs columns =>
      exact left_of_afterFetch (fetchAs_buffered (α := α) engine able world columns).2
  | fetchRest columns layout =>
      exact left_of_afterFetch (fetchRest_buffered engine able world columns layout).1
  | fetchRestAs =>
      exact left_of_afterFetch (fetchRestAs_buffered (α := α) engine able world).1

end Step

theorem shares_of_history {first last : Statement BufferedHandle} {done : List Operation}
    {trace : Trace} (history : History engine.client first done trace last)
    (able : first.fetchFault? = none) (keeps : ∀ operation ∈ done, operation.KeepsStream) :
    last.fetchFault? = none
      ∧ (Operation.shares first.handle.pending done).flatten ++ last.handle.pending =
          first.handle.pending := by
  induction history with
  | start => exact ⟨able, rfl⟩
  | @next done trace last operation α step past performed ih =>
      -- What was left so far is what the operation takes and what it leaves.
      obtain ⟨fetchable, shared⟩ := ih fun other member => keeps other (by simp [member])
      obtain ⟨still, left⟩ := leaves_of_performs performed (keeps operation (by simp)) fetchable
      refine ⟨still, ?_⟩
      rw [Operation.shares_append shared, List.flatten_append, List.flatten_singleton,
        List.append_assoc, left, Operation.takes_append_leaves, shared]

theorem fetchFault?_of_execute {state handle : Type} {client : Client state handle}
    {world : World state} {statement : Statement handle} {params : Parameters} {answer : Bool}
    (executed : (statement.execute client world params).result = .ok answer) :
    (statement.execute client world params).statement.fetchFault? = none := by
  revert executed
  unfold execute
  split
  · intro refused
    cases refused
  · dsimp only
    split
    · intro refused
      cases refused
    · split
      · intro refused
        cases refused
      · exact fun _ => rfl

/-! A loop over single rows. -/

/-- What a loop of fetches gives, which ends once there are no more rows or one fails. -/
inductive LoopGives {state handle : Type}
    (next : World state → Statement handle → Step state handle (Option β)) :
    World state → Statement handle → Except Error (List β) → Prop where
  | drained {world : World state} {statement : Statement handle}
      (nothing : (next world statement).result = .ok none) :
      LoopGives next world statement (.ok [])
  | failed {world : World state} {statement : Statement handle} {cause : Error}
      (refused : (next world statement).result = .error cause) :
      LoopGives next world statement (.error cause)
  | more {world : World state} {statement : Statement handle} {value : β}
      {outcome : Except Error (List β)}
      (given : (next world statement).result = .ok (some value))
      (rest : LoopGives next (next world statement).world (next world statement).statement
        outcome) :
      LoopGives next world statement (outcome.map (value :: ·))

theorem LoopGives.unique {state handle : Type}
    {next : World state → Statement handle → Step state handle (Option β)}
    {world : World state} {statement : Statement handle} {given other : Except Error (List β)}
    (loop : LoopGives next world statement given) (again : LoopGives next world statement other) :
    given = other := by
  -- The same fetch is asked first, so both loops go on in the same way.
  induction loop generalizing other with
  | drained nothing =>
      cases again with
      | drained => rfl
      | failed refused => rw [nothing] at refused; cases refused
      | more given => rw [nothing] at given; cases given
  | failed refused =>
      cases again with
      | drained nothing => rw [refused] at nothing; cases nothing
      | failed same => rw [refused] at same; cases same; rfl
      | more given => rw [refused] at given; cases given
  | more given rest ih =>
      cases again with
      | drained nothing => rw [given] at nothing; cases nothing
      | failed refused => rw [given] at refused; cases refused
      | more same later =>
          rw [given] at same
          cases same
          rw [ih later]

/-- A fetch that takes one row, and makes of it what the statement is set up for. -/
structure TakesNext
    (next : World database → Statement BufferedHandle → Step database BufferedHandle (Option β))
    (outcome : Statement BufferedHandle → Row → Except Error β) : Prop where
  takes : ∀ world {statement : Statement BufferedHandle}, statement.fetchFault? = none →
    (next world statement).result = nextOutcome (outcome statement) statement.handle.pending
      ∧ (next world statement).statement = statement.afterFetch statement.handle.pending.tail
  steady : ∀ (statement : Statement BufferedHandle) (left : List Row),
    outcome (statement.afterFetch left) = outcome statement

section Loop
variable {outcome : Statement BufferedHandle → Row → Except Error β}
  {next : World database → Statement BufferedHandle → Step database BufferedHandle (Option β)}

theorem loopGives_mapM (single : TakesNext next outcome) {statement : Statement BufferedHandle}
    (able : statement.fetchFault? = none) (world : World database) :
    LoopGives next world statement (statement.handle.pending.mapM (outcome statement)) := by
  -- The induction is on the rows that are left, of which a fetch takes the first.
  generalize pending : statement.handle.pending = rows
  induction rows generalizing statement world with
  | nil =>
      refine .drained ?_
      rw [(single.takes world able).1, pending]
      rfl
  | cons row rest ih =>
      obtain ⟨taken, left⟩ := single.takes world able
      rw [pending] at taken left
      have later := @ih (statement.afterFetch rest) rfl (next world statement).world rfl
      rw [single.steady] at later
      cases made : outcome statement row with
      | error cause =>
          rw [List.mapM_cons, made]
          refine .failed ?_
          rw [taken, nextOutcome, List.head?_cons, Option.elim_some, made]
          rfl
      | ok value =>
          have gives : (next world statement).result = .ok (some value) := by
            rw [taken, nextOutcome, List.head?_cons, Option.elim_some, made]
            rfl
          have collected : (row :: rest).mapM (outcome statement) =
              (rest.mapM (outcome statement)).map (value :: ·) := by
            rw [List.mapM_cons, made]
            cases rest.mapM (outcome statement) <;> rfl
          rw [collected]
          exact .more gives (left ▸ later)

theorem loopGives_iff (single : TakesNext next outcome) {statement : Statement BufferedHandle}
    (able : statement.fetchFault? = none) {world : World database}
    {given : Except Error (List β)} :
    LoopGives next world statement given ↔
      given = statement.handle.pending.mapM (outcome statement) := by
  have loop := loopGives_mapM single able world
  constructor
  · exact fun other => other.unique loop
  · rintro rfl
    exact loop

theorem takesNext_fetch (columns : Option (List String)) (layout : Option RowLayout) :
    TakesNext (fun world statement => statement.fetch engine.client world columns layout)
      (fun statement => statement.shapedOutcome columns layout) :=
  ⟨fun world _ able => fetch_buffered engine able world columns layout, fun _ _ => rfl⟩

theorem takesNext_fetchAs [OfRow α] (columns : Option (List String)) :
    TakesNext (fun world statement => statement.fetchAs (α := α) engine.client world columns)
      (fun statement => statement.readOutcome columns) :=
  ⟨fun world _ able => fetchAs_buffered engine able world columns, fun _ _ => rfl⟩

end Loop

theorem map_flat_inj {one other : Except Error (List ShapedRow)} :
    one.map RowSet.flat = other.map RowSet.flat ↔ one = other := by
  cases one <;> cases other <;> simp [Except.map]

/-- How the rows of an execution, all of them buffered, are read by the operations done since,
    and by the one that comes next. -/
structure Streams (engine : Engine database) (rows : List Row) (done : List Operation)
    (last : Statement BufferedHandle) : Prop where
  shared : (Operation.shares rows done).flatten ++ last.handle.pending = rows
  next : ∀ (world : World database) (columns : Option (List String)) (layout : Option RowLayout),
    let step := last.fetch engine.client world columns layout
    step.result = nextOutcome (last.shapedOutcome columns layout) last.handle.pending
      ∧ step.statement.handle.pending = last.handle.pending.tail
  nextAs : ∀ {α : Type} [OfRow α] (world : World database) (columns : Option (List String)),
    let step : Step database BufferedHandle (Option α) := last.fetchAs engine.client world columns
    step.result = nextOutcome (last.readOutcome columns) last.handle.pending
      ∧ step.statement.handle.pending = last.handle.pending.tail
  rest : ∀ (world : World database) (columns : Option (List String)) (layout : Option RowLayout),
    let step := last.fetchRest engine.client world columns layout
    step.statement.handle.pending = []
      ∧ ((last.layoutFor layout).grouped = false → ∀ given,
          step.result = given.map .flat ↔
            LoopGives (fun world statement => statement.fetch engine.client world columns layout)
              world last given)
  restAs : ∀ {α : Type} [OfRow α] (world : World database),
    let step : Step database BufferedHandle (List α) := last.fetchRestAs engine.client world
    step.statement.handle.pending = []
      ∧ ∀ given, step.result = given ↔
          LoopGives (fun world statement => statement.fetchAs engine.client world none)
            world last given

/-- Between two executions every row is taken once, in order, by whatever comes first to it. A
    single fetch gives what can be made of the row it takes, and a fetch of all the rest gives
    what a loop of single ones would have given. -/
theorem streams_of_execution {world : World database} {prior last : Statement BufferedHandle}
    {params : Parameters} {answer : Bool} {done : List Operation} {trace : Trace}
    (executed : (prior.execute engine.client world params).result = .ok answer)
    (history : History engine.client (prior.execute engine.client world params).statement
      done trace last)
    (keeps : ∀ operation ∈ done, operation.KeepsStream) :
    Streams engine (prior.execute engine.client world params).statement.handle.pending
      done last := by
  obtain ⟨able, shared⟩ := shares_of_history history (fetchFault?_of_execute executed) keeps
  refine { shared, next := ?_, nextAs := ?_, rest := ?_, restAs := ?_ }
  · intro world columns layout
    obtain ⟨result, left⟩ := fetch_buffered engine able world columns layout
    exact ⟨result, (left_of_afterFetch left).2⟩
  · intro α reads world columns
    obtain ⟨result, left⟩ := fetchAs_buffered (α := α) engine able world columns
    exact ⟨result, (left_of_afterFetch left).2⟩
  · intro world columns layout
    obtain ⟨left, result⟩ := fetchRest_buffered engine able world columns layout
    refine ⟨(left_of_afterFetch left).2, fun flat given => ?_⟩
    rw [result flat, map_flat_inj, loopGives_iff (takesNext_fetch columns layout) able]
    exact eq_comm
  · intro α reads world
    obtain ⟨left, result⟩ := fetchRestAs_buffered (α := α) engine able world
    refine ⟨(left_of_afterFetch left).2, fun given => ?_⟩
    rw [result, loopGives_iff (takesNext_fetchAs none) able]
    exact eq_comm

/-- People of whom the first has an `ssn` that was never encrypted. -/
def people : Engine Unit :=
  .answering ["id", "name", "ssn"]
    [[.integer 1, .ofText "ada", .ofText "123"], [.integer 2, .ofText "bob", .ofText "enc:456"]]

def listing : Statement BufferedHandle where
  handle := ⟨"SELECT * FROM people", none, [], 0⟩
  sql := "SELECT * FROM people"
  expansions := .empty
  sealedColumns := ["ssn"]
  cipher := some (Sample.tag none)
  layout := .standard
  state := .prepared

/-- The row that is refused is taken all the same; the other one can still be read. -/
theorem streams_past_refused_row :
    let start := (listing.execute people.client ⟨(), 0⟩ .empty).statement
    let refused := start.fetch people.client ⟨(), 0⟩ none none
    refused.result = .error (.decryption "ssn" (.malformed (.refused "123")))
      ∧ refused.statement.handle.pending.length = 1
      ∧ Streams people start.handle.pending [.fetch none none] refused.statement := by
  intro start refused
  have history : History people.client start [.fetch none none] _ refused.statement :=
    .next .start (α := Sample.Person) ⟨inferInstance, ⟨(), 0⟩, rfl⟩
  have executed : (listing.execute people.client ⟨(), 0⟩ .empty).result = .ok true := rfl
  exact ⟨rfl, rfl, streams_of_execution executed history (by simp [Operation.KeepsStream])⟩

end Statement

end SealedColumns
