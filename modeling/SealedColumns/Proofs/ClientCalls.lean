import SealedColumns.Operation
import SealedColumns.Proofs.OpenedCells
import SealedColumns.Proofs.Sealing

/-!
What a statement has to do with its client. An operation calls the client once or not at
all, and the call that the trace tells of is the one that was made: whether it succeeded,
what it gave, and what it left of the handle and of the client's state is what the client
itself answers. Without a call the handle and the client's state are as they were.
-/

namespace SealedColumns

/-- What a client gives in answer to a call. -/
inductive Given where
  | done (done : Bool)
  | row (row : Option Row)
  | rows (results : ResultSet)

/-- What the client itself does when it is called on a handle: its answer, and what it
    leaves of the handle and of its state. Preparing is no call on a handle. -/
def Client.reply? {state handle : Type} (client : Client state handle) (db : state)
    (held : handle) : ClientCall → Option (Except Error Given × handle × state)
  | .prepare _ => none
  | .execute params =>
      let (answer, left) := client.execute db held params
      some (answer.map .done, left)
  | .fetch =>
      let (answer, left) := client.fetch db held
      some (answer.map .row, left)
  | .fetchRest =>
      let (answer, left) := client.fetchRest db held
      some (answer.map .rows, left)

namespace ClientCall

def isExecute : ClientCall → Bool
  | execute _ => true
  | _ => false

def isFetch : ClientCall → Bool
  | fetch | fetchRest => true
  | _ => false

/-- The state that an answer to the call leads to. -/
def leadsTo : ClientCall → Statement.State
  | prepare _ => .prepared
  | execute _ => .executed
  | fetch | fetchRest => .fetching

/-- The error of an operation whose call the client refused. -/
def fault : ClientCall → Error → Error
  | prepare _, cause => .preparation cause
  | execute _, cause => .execution cause
  | fetch, cause | fetchRest, cause => cause

end ClientCall

namespace Trace

theorem clientCalls_append (before after : Trace) :
    clientCalls (before ++ after) = before.clientCalls ++ after.clientCalls :=
  List.filterMap_append

theorem answeredCalls_append (before after : Trace) :
    answeredCalls (before ++ after) = before.answeredCalls ++ after.answeredCalls :=
  List.filterMap_append

theorem answeredCalls_sublist (trace : Trace) :
    trace.answeredCalls.Sublist trace.clientCalls := by
  induction trace with
  | nil => exact List.Sublist.slnil
  | cons action rest ih =>
      cases action with
      | event | cipher => exact ih
      | client call succeeded =>
          cases succeeded with
          | false => exact ih.cons call
          | true => exact ih.cons_cons call

theorem answeredCalls_of_clientCalls {trace : Trace} (silent : trace.clientCalls = []) :
    trace.answeredCalls = [] :=
  List.sublist_nil.mp (silent ▸ trace.answeredCalls_sublist)

end Trace

/-! What decrypting does: it never calls the client. -/

/-- A text that is not empty is decrypted, or a column is logged. -/
inductive Action.Decrypting : Action → Prop where
  | called {ciphertext : String} (visible : ciphertext ≠ "") :
      Decrypting (.cipher (.decrypt ciphertext))
  | logged (column : String) : Decrypting (.event (.decrypted column))

namespace Trace

def Decrypting (trace : Trace) : Prop := ∀ action ∈ trace, action.Decrypting

theorem decrypting_nil : Decrypting [] := List.forall_mem_nil _

theorem decrypting_cons {action : Action} {rest : Trace} :
    Decrypting (action :: rest) ↔ action.Decrypting ∧ rest.Decrypting := List.forall_mem_cons

theorem Decrypting.append {before after : Trace} (first : before.Decrypting)
    (later : after.Decrypting) : (before ++ after).Decrypting :=
  List.forall_mem_append.mpr ⟨first, later⟩

theorem Decrypting.clientCalls_eq_nil {trace : Trace} (decrypting : trace.Decrypting) :
    trace.clientCalls = [] := by
  apply List.filterMap_eq_nil_iff.mpr
  intro action member
  cases decrypting action member with
  | called | logged => rfl

end Trace

theorem Value.ciphertext_ne_empty {value : Value} {ciphertext : String}
    (visible : value.isBlank = false) (read : value.ciphertext = .ok ciphertext) :
    ciphertext ≠ "" := by
  rintro rfl
  rcases (Value.ciphertext_eq_ok_iff value "").mp read with rfl | rfl <;> contradiction

section Opening
variable {row α : Type} [Cells row] (cipher : Option Cipher) (columns : List String)

theorem decrypting_openCells (cells : row) :
    (openCells cipher columns cells).trace.Decrypting := by
  fun_induction openCells cipher columns cells with
  | case1 | case4 | case5 => exact Trace.decrypting_nil
  | case2 _ _ _ _ _ ih | case3 _ _ _ _ _ _ _ ih => exact ih
  | case6 column rest cells value found visible cipher ciphertext text =>
      have visible : value.isBlank = false := by simpa using visible
      exact Trace.decrypting_cons.mpr
        ⟨.called (Value.ciphertext_ne_empty visible text), Trace.decrypting_nil⟩
  | case7 column rest cells value found visible cipher ciphertext text plaintext answer later ih =>
      have visible : value.isBlank = false := by simpa using visible
      exact Trace.decrypting_cons.mpr ⟨.called (Value.ciphertext_ne_empty visible text),
        Trace.decrypting_cons.mpr ⟨.logged column, ih⟩⟩

theorem decrypting_openRows (rows : List row) :
    (openRows cipher columns rows).trace.Decrypting := by
  induction rows with
  | nil => exact Trace.decrypting_nil
  | cons first rest ih =>
      have here := decrypting_openCells cipher columns first
      unfold openRows
      dsimp only
      split
      · exact here
      · exact here.append ih

theorem decrypting_openGroups (groups : List KeyedRows) :
    (openGroups cipher columns groups).trace.Decrypting := by
  induction groups with
  | nil => exact Trace.decrypting_nil
  | cons group rest ih =>
      have here := decrypting_openRows cipher columns group.rows
      unfold openGroups
      dsimp only
      split
      · exact here
      · exact here.append ih

theorem decrypting_openRowSet (set : RowSet) :
    (openRowSet cipher columns set).trace.Decrypting := by
  cases set with
  | flat rows => exact decrypting_openRows cipher columns rows
  | grouped groups => exact decrypting_openGroups cipher columns groups

theorem decrypting_readRows [OfRow α] (rows : List Row) :
    (Statement.readRows cipher columns rows : Except Error (List α) × Trace).2.Decrypting := by
  induction rows with
  | nil => exact Trace.decrypting_nil
  | cons first rest ih =>
      have here := decrypting_openCells cipher columns first
      unfold Statement.readRows
      dsimp only
      split
      · exact here
      · split
        · exact here
        · exact here.append ih

end Opening

namespace Statement

variable {state handle : Type}

/-! Steps and the client. -/

/-- The client was not called, and nothing that it could have changed is other than before. -/
structure Step.Uncalled {α : Type} (world : World state) (statement : Statement handle)
    (step : Step state handle α) : Prop where
  silent : step.trace.clientCalls = []
  held : step.statement.handle = statement.handle
  untouched : step.world.client = world.client

/-- What the trace tells of the client is what came of calling it. -/
inductive Step.Reports {α : Type} (client : Client state handle) (world : World state)
    (statement : Statement handle) (step : Step state handle α) : Prop where
  | uncalled (spared : step.Uncalled world statement)
  | called (call : ClientCall) (answer : Except Error Given)
      (reply : client.reply? world.client statement.handle call =
        some (answer, step.statement.handle, step.world.client))
      (logged : step.trace.clientCalls = [call])
      (heard : step.trace.answeredCalls = if answer.isOk then [call] else [])
      (failed : ∀ cause, answer = .error cause → step.result = .error (call.fault cause))

/-- The client has executed the statement once, with these parameters, and the step gives and
    leaves what the client gave and left. -/
structure Step.Executes (client : Client state handle) (world : World state)
    (statement : Statement handle) (given : Parameters) (step : Step state handle Bool) :
    Prop where
  logged : step.trace.clientCalls = [.execute given]
  heard : step.trace.answeredCalls =
    if (client.execute world.client statement.handle given).1.isOk then [.execute given] else []
  result : step.result =
    (client.execute world.client statement.handle given).1.mapError .execution
  held : step.statement.handle = (client.execute world.client statement.handle given).2.1
  left : step.world.client = (client.execute world.client statement.handle given).2.2
  moved : step.statement.state =
    if (client.execute world.client statement.handle given).1.isOk then .executed
    else statement.state

/-- Whether a statement in the state may call its client so. -/
def State.Allows (before : State) : ClientCall → Prop
  | .prepare _ => False
  | .execute _ => before ≠ .closed
  | .fetch | .fetchRest => before = .executed ∨ before = .fetching

/-- How an operation can go that does not close the statement. What happens after the
    client has answered, a cell that cannot be decrypted or a row that cannot be read,
    no longer matters for the state. -/
inductive Goes {α : Type} (client : Client state handle) (world : World state)
    (statement : Statement handle) (step : Step state handle α) : Prop where
  | uncalled (spared : step.Uncalled world statement)
      (kept : step.statement.state = statement.state)
  | refused (call : ClientCall) (cause : Error) (allowed : statement.state.Allows call)
      (reply : client.reply? world.client statement.handle call =
        some (.error cause, step.statement.handle, step.world.client))
      (called : step.trace.clientCalls = [call]) (unanswered : step.trace.answeredCalls = [])
      (failed : step.result = .error (call.fault cause))
      (kept : step.statement.state = statement.state)
  | answered (call : ClientCall) (given : Given) (allowed : statement.state.Allows call)
      (reply : client.reply? world.client statement.handle call =
        some (.ok given, step.statement.handle, step.world.client))
      (called : step.trace.clientCalls = [call]) (heard : step.trace.answeredCalls = [call])
      (moved : step.statement.state = call.leadsTo)

section Step
variable {α β : Type} {client : Client state handle} {world : World state}
  {statement : Statement handle}

theorem Goes.reports {step : Step state handle α} (goes : Goes client world statement step) :
    step.Reports client world statement := by
  cases goes with
  | uncalled spared => exact .uncalled spared
  | refused call cause allowed reply called unanswered failed =>
      refine .called call (.error cause) reply called unanswered ?_
      rintro _ ⟨⟩
      exact failed
  | answered call given allowed reply called heard =>
      exact .called call (.ok given) reply called heard nofun

/-- What a step gave is decrypted, and the client is called no more. -/
structure Step.Continues (step : Step state handle α) (other : Step state handle β) : Prop where
  trace : ∃ later : Trace, later.Decrypting ∧ other.trace = step.trace ++ later
  statement : other.statement = step.statement
  world : other.world = step.world
  fails : ∀ cause, step.result = .error cause → other.result = .error cause

theorem Step.Continues.clientCalls {step : Step state handle α} {other : Step state handle β}
    (continues : step.Continues other) : other.trace.clientCalls = step.trace.clientCalls := by
  obtain ⟨later, decrypting, traced⟩ := continues.trace
  rw [traced, Trace.clientCalls_append, decrypting.clientCalls_eq_nil, List.append_nil]

theorem Step.Continues.answeredCalls {step : Step state handle α} {other : Step state handle β}
    (continues : step.Continues other) :
    other.trace.answeredCalls = step.trace.answeredCalls := by
  obtain ⟨later, decrypting, traced⟩ := continues.trace
  rw [traced, Trace.answeredCalls_append,
    Trace.answeredCalls_of_clientCalls decrypting.clientCalls_eq_nil, List.append_nil]

theorem Goes.continues {step : Step state handle α} {other : Step state handle β}
    (goes : Goes client world statement step) (continues : step.Continues other) :
    Goes client world statement other := by
  have calls := continues.clientCalls
  have answers := continues.answeredCalls
  obtain ⟨-, left, shared, fails⟩ := continues
  cases goes with
  | uncalled spared kept =>
      exact .uncalled ⟨calls.trans spared.silent, left ▸ spared.held, shared ▸ spared.untouched⟩
        (left ▸ kept)
  | refused call cause allowed reply called unanswered failed kept =>
      exact .refused call cause allowed (left ▸ shared ▸ reply) (calls.trans called)
        (answers.trans unanswered) (fails _ failed) (left ▸ kept)
  | answered call given allowed reply called heard moved =>
      exact .answered call given allowed (left ▸ shared ▸ reply) (calls.trans called)
        (answers.trans heard) (left ▸ moved)

theorem continues_map (f : α → β) (step : Step state handle α) : step.Continues (step.map f) := by
  refine ⟨⟨[], Trace.decrypting_nil, step.trace.append_nil.symm⟩, rfl, rfl, ?_⟩
  intro cause failed
  rw [Step.map, failed]
  rfl

theorem continues_andThen (step : Step state handle α) {next : α → Except Error β × Trace}
    (decrypts : ∀ given, (next given).2.Decrypting) : step.Continues (step.andThen next) := by
  unfold Step.andThen
  cases result : step.result with
  | error cause =>
      refine ⟨⟨[], Trace.decrypting_nil, step.trace.append_nil.symm⟩, rfl, rfl, ?_⟩
      intro other failed
      obtain rfl := Except.error.inj (result.symm.trans failed)
      rfl
  | ok given =>
      refine ⟨⟨(next given).2, decrypts given, rfl⟩, rfl, rfl, ?_⟩
      intro cause failed
      rw [result] at failed
      contradiction

section Reading
variable (client world statement) (columns : Option (List String)) (layout : Option RowLayout)

theorem continues_fetch :
    (nextRow client world statement).Continues (statement.fetch client world columns layout) := by
  refine continues_andThen _ ?_
  rintro (- | row)
  · exact Trace.decrypting_nil
  · exact decrypting_openCells _ _ _

theorem continues_fetchAs [OfRow α] :
    (nextRow client world statement).Continues
      (statement.fetchAs client world columns : Step state handle (Option α)) := by
  refine continues_andThen _ ?_
  rintro (- | row)
  · exact Trace.decrypting_nil
  · dsimp only
    split <;> exact decrypting_openCells _ _ _

theorem continues_fetchRest :
    (remainingRows client world statement).Continues
      (statement.fetchRest client world columns layout) :=
  continues_andThen _ fun _ => decrypting_openRowSet _ _ _

theorem continues_fetchRestAs [OfRow α] :
    (remainingRows client world statement).Continues
      (statement.fetchRestAs client world : Step state handle (List α)) :=
  continues_andThen _ fun _ => decrypting_readRows _ _ _

end Reading

theorem allows_of_fetchFault? (able : statement.fetchFault? = none) :
    statement.state = .executed ∨ statement.state = .fetching := by
  unfold fetchFault? at able
  cases here : statement.state with
  | prepared | closed => simp [here] at able
  | executed => exact Or.inl rfl
  | fetching => exact Or.inr rfl

theorem goes_nextRow : Goes client world statement (nextRow client world statement) := by
  unfold nextRow
  cases fault : statement.fetchFault? with
  | some fault => exact .uncalled ⟨rfl, rfl, rfl⟩ rfl
  | none =>
      have allowed := allows_of_fetchFault? fault
      rcases answered : client.fetch world.client statement.handle with ⟨answer, held, after⟩
      cases answer with
      | error cause =>
          exact .refused .fetch cause allowed (by rw [Client.reply?, answered]; rfl) rfl rfl rfl rfl
      | ok row =>
          exact .answered .fetch (.row row) allowed (by rw [Client.reply?, answered]; rfl)
            rfl rfl rfl

theorem goes_remainingRows :
    Goes client world statement (remainingRows client world statement) := by
  unfold remainingRows
  cases fault : statement.fetchFault? with
  | some fault => exact .uncalled ⟨rfl, rfl, rfl⟩ rfl
  | none =>
      have allowed := allows_of_fetchFault? fault
      rcases answered : client.fetchRest world.client statement.handle with ⟨answer, held, after⟩
      cases answer with
      | error cause =>
          exact .refused .fetchRest cause allowed (by rw [Client.reply?, answered]; rfl)
            rfl rfl rfl rfl
      | ok results =>
          exact .answered .fetchRest (.rows results) allowed
            (by rw [Client.reply?, answered]; rfl) rfl rfl rfl

/-! Execution: the client is called with what encryption makes of the parameters. -/

/-- Encryption of the parameters of one execution. -/
def sealing (statement : Statement handle) (draws : Nat) (params : Parameters) : Sealing :=
  sealParameters (statement.expansions.expand params) statement.sealedColumns
    statement.expansions statement.cipher draws

theorem mem_trace_sealing {draws : Nat} {params : Parameters} {action : Action}
    (member : action ∈ (statement.sealing draws params).trace) :
    ∃ plaintext, action = .cipher (.encrypt plaintext) := by
  unfold sealing sealParameters at member
  split at member
  · contradiction
  · exact trace_sealTargets member

theorem clientCalls_sealing (statement : Statement handle) (draws : Nat) (params : Parameters) :
    (statement.sealing draws params).trace.clientCalls = [] := by
  apply List.filterMap_eq_nil_iff.mpr
  intro action member
  obtain ⟨plaintext, rfl⟩ := mem_trace_sealing member
  rfl

section Execute
variable {params : Parameters}

/-- What cannot be encrypted does not reach the client. -/
theorem uncalled_of_sealing_error (client : Client state handle) {cause : Error}
    (failed : (statement.sealing world.draws params).result = .error cause) :
    (statement.execute client world params).Uncalled world statement
      ∧ (statement.execute client world params).statement = statement
      ∧ ∃ cause, (statement.execute client world params).result = .error cause := by
  have silent := clientCalls_sealing statement world.draws params
  unfold execute
  split
  · exact ⟨⟨rfl, rfl, rfl⟩, rfl, _, rfl⟩
  · dsimp only
    rw [← sealing, failed]
    exact ⟨⟨silent, rfl, rfl⟩, rfl, _, rfl⟩

theorem executes_of_sealing_ok {encrypted : Nat} (opened : statement.state ≠ .closed)
    (done : (statement.sealing world.draws params).result = .ok encrypted) :
    (statement.execute client world params).Executes client world statement
      (statement.sealing world.draws params).params := by
  have silent := clientCalls_sealing statement world.draws params
  have calls (tail : Trace) : Trace.clientCalls
      ((statement.sealing world.draws params).trace ++ tail) = tail.clientCalls := by
    rw [Trace.clientCalls_append, silent, List.nil_append]
  have answers (tail : Trace) : Trace.answeredCalls
      ((statement.sealing world.draws params).trace ++ tail) = tail.answeredCalls := by
    rw [Trace.answeredCalls_append, Trace.answeredCalls_of_clientCalls silent, List.nil_append]
  unfold execute
  rw [if_neg opened]
  dsimp only
  rw [← sealing, done]
  rcases answered : client.execute world.client statement.handle
    (statement.sealing world.draws params).params with ⟨answer, held, after⟩
  cases answer with
  | error cause | ok given =>
      constructor <;> simp only [answered]
      · exact calls _
      · exact answers _
      · rfl
      · rfl

/-- An execution ends before its call, or it is the client's own. -/
theorem execute_cases (client : Client state handle) (world : World state)
    (statement : Statement handle) (params : Parameters) :
    (statement.execute client world params).Uncalled world statement
        ∧ (statement.execute client world params).statement = statement
      ∨ statement.state ≠ .closed
        ∧ (statement.execute client world params).Executes client world statement
          (statement.sealing world.draws params).params := by
  by_cases closed : statement.state = .closed
  · rw [execute, if_pos closed]
    exact Or.inl ⟨⟨rfl, rfl, rfl⟩, rfl⟩
  cases result : (statement.sealing world.draws params).result with
  | error cause =>
      obtain ⟨spared, same, -⟩ := uncalled_of_sealing_error client result
      exact Or.inl ⟨spared, same⟩
  | ok encrypted => exact Or.inr ⟨closed, executes_of_sealing_ok closed result⟩

theorem Step.Executes.goes {given : Parameters} {step : Step state handle Bool}
    (opened : statement.state ≠ .closed) (executes : step.Executes client world statement given) :
    Goes client world statement step := by
  obtain ⟨logged, heard, result, held, left, moved⟩ := executes
  rcases answered : client.execute world.client statement.handle given with ⟨answer, new, after⟩
  rw [answered] at heard result held left moved
  have reply : client.reply? world.client statement.handle (.execute given) =
      some (answer.map .done, step.statement.handle, step.world.client) := by
    rw [Client.reply?, answered, held, left]
  cases answer with
  | error cause => exact .refused (.execute given) cause opened reply logged heard result moved
  | ok done => exact .answered (.execute given) (.done done) opened reply logged heard moved

theorem goes_execute (params : Parameters) :
    Goes client world statement (statement.execute client world params) := by
  rcases execute_cases client world statement params with ⟨spared, same⟩ | ⟨opened, executes⟩
  · exact .uncalled spared (congrArg Statement.state same)
  · exact executes.goes opened

end Execute

/-! Operations. -/

theorem goes_perform [OfRow α] {operation : Operation} (stays : operation ≠ .close) :
    Goes client world statement
      (statement.perform client world operation : Step state handle (Answer α)) := by
  cases operation with
  | encryptColumns | withCipher | withLayout => exact .uncalled ⟨rfl, rfl, rfl⟩ rfl
  | execute params => exact (goes_execute params).continues (continues_map _ _)
  | fetch columns layout =>
      exact (goes_nextRow.continues (continues_fetch ..)).continues (continues_map _ _)
  | fetchAs columns =>
      exact (goes_nextRow.continues (continues_fetchAs ..)).continues (continues_map _ _)
  | fetchRest columns layout =>
      exact (goes_remainingRows.continues (continues_fetchRest ..)).continues (continues_map _ _)
  | fetchRestAs =>
      exact (goes_remainingRows.continues (continues_fetchRestAs ..)).continues
        (continues_map _ _)
  | close => exact absurd rfl stays

theorem reports_perform [OfRow α] (client : Client state handle) (world : World state)
    (statement : Statement handle) (operation : Operation) :
    (statement.perform client world operation : Step state handle (Answer α)).Reports
      client world statement := by
  by_cases shuts : operation = .close
  · subst shuts
    exact .uncalled ⟨rfl, rfl, rfl⟩
  · exact (goes_perform shuts).reports

theorem eq_fetch_of_nextRow {call : ClientCall}
    (member : call ∈ (nextRow client world statement).trace.clientCalls) : call = .fetch := by
  unfold nextRow at member
  split at member
  · contradiction
  · dsimp only at member
    split at member <;> exact List.mem_singleton.mp member

theorem eq_fetchRest_of_remainingRows {call : ClientCall}
    (member : call ∈ (remainingRows client world statement).trace.clientCalls) :
    call = .fetchRest := by
  unfold remainingRows at member
  split at member
  · contradiction
  · dsimp only at member
    split at member <;> exact List.mem_singleton.mp member

theorem executes_of_mem {params given : Parameters}
    (member : .execute given ∈ (statement.execute client world params).trace.clientCalls) :
    statement.state ≠ .closed
      ∧ given = (statement.sealing world.draws params).params
      ∧ (statement.execute client world params).Executes client world statement given := by
  rcases execute_cases client world statement params with ⟨spared, same⟩ | ⟨opened, executes⟩
  · rw [spared.silent] at member
    contradiction
  · rw [executes.logged] at member
    cases List.mem_singleton.mp member
    exact ⟨opened, rfl, executes⟩

/-- No other operation hands parameters over. -/
theorem execute_of_mem_perform [OfRow α] {operation : Operation} {given : Parameters}
    (member : .execute given ∈ Trace.clientCalls
      (statement.perform client world operation : Step state handle (Answer α)).trace) :
    ∃ params, operation = .execute params := by
  cases operation with
  | encryptColumns | withCipher | withLayout | close => contradiction
  | execute params => exact ⟨params, rfl⟩
  | fetch columns layout =>
      replace member := (continues_fetch client world statement columns layout).clientCalls ▸ member
      cases eq_fetch_of_nextRow member
  | fetchAs columns =>
      replace member :=
        (continues_fetchAs (α := α) client world statement columns).clientCalls ▸ member
      cases eq_fetch_of_nextRow member
  | fetchRest columns layout =>
      replace member := (continues_fetchRest client world statement columns layout).clientCalls ▸ member
      cases eq_fetchRest_of_remainingRows member
  | fetchRestAs =>
      replace member := (continues_fetchRestAs (α := α) client world statement).clientCalls ▸ member
      cases eq_fetchRest_of_remainingRows member

end Step

/-- Preparing hands the renamed text to the client, once. -/
theorem prepare_calls_once (client : Client state handle) (world : World state) (sql : String)
    (cipher : Option Cipher) (layout : RowLayout) :
    let answer := client.prepare world.client (Placeholder.rename sql).sql
    let preparation := prepare client world sql cipher layout
    preparation.trace.clientCalls = [.prepare (Placeholder.rename sql).sql]
      ∧ preparation.trace.answeredCalls =
        (if answer.1.isOk then [.prepare (Placeholder.rename sql).sql] else [])
      ∧ preparation.result.map (·.handle) = answer.1.mapError .preparation
      ∧ preparation.world.client = answer.2 := by
  rcases answered : client.prepare world.client (Placeholder.rename sql).sql with ⟨given, left⟩
  unfold Placeholder.rename at answered
  simp only [prepare, Placeholder.rename, answered]
  cases given with
  | error cause | ok handle => exact ⟨rfl, rfl, rfl, rfl⟩

end Statement

end SealedColumns
