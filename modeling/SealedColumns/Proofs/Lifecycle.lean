import SealedColumns.Proofs.Execution
import SealedColumns.Sample.Person

/-!
The life of a prepared statement. An operation calls the client at most once, and only
a call that is answered without an error, or closing, gives the statement another state.
So the state of an open statement is told by the calls that were answered so far, and
from it the calls that the client can still receive.
-/

namespace SealedColumns

namespace Statement

variable {state handle : Type}

/-- What an operation on a statement can be at some time. The world is as others left it,
    and every operation may read rows as values of a type of its own. -/
def Performs (client : Client state handle) (statement : Statement handle)
    (operation : Operation) {α : Type} (step : Step state handle (Answer α)) : Prop :=
  ∃ (_ : OfRow α) (world : World state), statement.perform client world operation = step

/-- The operations on a statement in order, all that they did, and what they made of it. -/
inductive History (client : Client state handle) (first : Statement handle) :
    List Operation → Trace → Statement handle → Prop where
  | start : History client first [] [] first
  | next {done : List Operation} {trace : Trace} {last : Statement handle}
      {operation : Operation} {α : Type} {step : Step state handle (Answer α)}
      (past : History client first done trace last)
      (performed : Performs client last operation step) :
      History client first (done ++ [operation]) (trace ++ step.trace) step.statement

/-- The state of an open statement, told from the calls that the client answered. -/
def State.told (answered : List ClientCall) : State :=
  if answered.any ClientCall.isExecute then
    match answered.getLast? with
    | some (.execute _) => .executed
    | _ => .fetching
  else .prepared

section History
variable {client : Client state handle} {first last : Statement handle} {done : List Operation}
  {trace : Trace}

/-- A run is such a history, in which nobody else changes the world. -/
theorem history_run {α : Type} [reads : OfRow α] (past : History client first done trace last)
    (world : World state) (operations : List Operation) :
    let steps : List (Step state handle (Answer α)) := last.run client world operations
    History client first (done ++ operations) (trace ++ steps.flatMap (·.trace))
      ((steps.getLast?.map (·.statement)).getD last) := by
  induction operations generalizing done trace last world with
  | nil => simpa [run] using past
  | cons operation rest ih =>
      let step : Step state handle (Answer α) := last.perform client world operation
      have later := ih (past.next ⟨reads, world, show _ = step from rfl⟩) step.world
      simpa [run, List.getLast?_cons] using later

theorem told_of_isFetch {answered : List ClientCall} {call : ClientCall}
    (allowed : (State.told answered).Allows call) (fetches : call.isFetch = true) :
    ∃ params, .execute params ∈ answered := by
  by_contra never
  have unexecuted : ¬ answered.any ClientCall.isExecute = true := by
    intro some
    obtain ⟨other, member, executes⟩ := List.any_eq_true.mp some
    cases other with
    | execute params => exact never ⟨params, member⟩
    | prepare | fetch | fetchRest => contradiction
  rw [State.told, if_neg unexecuted] at allowed
  cases call with
  | prepare | execute => contradiction
  | fetch | fetchRest => simp [State.Allows] at allowed

theorem told_append {answered : List ClientCall} {call : ClientCall}
    (allowed : (State.told answered).Allows call) :
    State.told (answered ++ [call]) = call.leadsTo := by
  cases call with
  | prepare sql => exact absurd allowed id
  | execute params => simp [State.told, ClientCall.isExecute, ClientCall.leadsTo]
  | fetch | fetchRest =>
      -- The last answer is to a fetch; that there was an execution is left to see.
      obtain ⟨params, member⟩ := told_of_isFetch allowed rfl
      have begun : answered.any ClientCall.isExecute = true :=
        List.any_eq_true.mpr ⟨.execute params, member, rfl⟩
      simp [State.told, begun, ClientCall.leadsTo]

section Performs
variable {operation : Operation} {α : Type} {step : Step state handle (Answer α)}

theorem performs_cases (performed : Performs client last operation step) :
    (operation = .close ∧ step.trace.clientCalls = [] ∧ step.statement.state = .closed)
      ∨ (operation ≠ .close ∧ ∃ world, Goes client world last step) := by
  obtain ⟨reads, world, rfl⟩ := performed
  by_cases shuts : operation = .close
  · subst shuts
    exact Or.inl ⟨rfl, rfl, rfl⟩
  · exact Or.inr ⟨shuts, world, goes_perform shuts⟩

theorem closed_of_performs (performed : Performs client last operation step)
    (closed : last.state = .closed) :
    step.statement.state = .closed ∧ step.trace.clientCalls = [] := by
  rcases performs_cases performed with ⟨rfl, silent, shut⟩ | ⟨stays, world, goes⟩
  · exact ⟨shut, silent⟩
  · cases goes with
    | uncalled spared kept => exact ⟨kept.trans closed, spared.silent⟩
    | refused call cause allowed | answered call given allowed =>
        -- A closed statement allows no call, so nothing opens it again.
        rw [closed] at allowed
        cases call <;> simp [State.Allows] at allowed

theorem kept_of_performs (performed : Performs client last operation step)
    (stays : operation ≠ .close) (unanswered : step.trace.answeredCalls = []) :
    step.statement.state = last.state := by
  rcases performs_cases performed with ⟨shuts, -, -⟩ | ⟨-, world, goes⟩
  · exact absurd shuts stays
  · cases goes with
    | uncalled spared kept => exact kept
    | refused call cause allowed reply called silent failed kept => exact kept
    | answered call given allowed reply called heard =>
        rw [unanswered] at heard
        contradiction

theorem moved_of_performs (performed : Performs client last operation step) {call : ClientCall}
    (member : call ∈ step.trace.answeredCalls) : step.statement.state = call.leadsTo := by
  rcases performs_cases performed with ⟨-, silent, -⟩ | ⟨-, world, goes⟩
  · rw [Trace.answeredCalls_of_clientCalls silent] at member
    contradiction
  · cases goes with
    | uncalled spared =>
        rw [Trace.answeredCalls_of_clientCalls spared.silent] at member
        contradiction
    | refused other cause allowed reply called unanswered =>
        rw [unanswered] at member
        contradiction
    | answered other given allowed reply called heard moved =>
        rw [heard, List.mem_singleton] at member
        exact member ▸ moved

theorem allows_of_performs (performed : Performs client last operation step) {call : ClientCall}
    (member : call ∈ step.trace.clientCalls) : last.state.Allows call := by
  rcases performs_cases performed with ⟨-, silent, -⟩ | ⟨-, world, goes⟩
  · rw [silent] at member
    contradiction
  · cases goes with
    | uncalled spared =>
        rw [spared.silent] at member
        contradiction
    | refused other cause allowed reply called | answered other given allowed reply called =>
        rw [called, List.mem_singleton] at member
        exact member ▸ allowed

end Performs

theorem state_of_history (fresh : first.state = .prepared)
    (history : History client first done trace last) :
    (.close ∈ done → last.state = .closed)
      ∧ (.close ∉ done → last.state = .told trace.answeredCalls) := by
  induction history with
  | start => exact ⟨fun member => by contradiction, fun _ => fresh⟩
  | @next done trace last operation α step past performed ih =>
      obtain ⟨closed, opened⟩ := ih
      by_cases before : .close ∈ done
      · have kept := (closed_of_performs performed (closed before)).1
        exact ⟨fun _ => kept, fun never => absurd (List.mem_append_left _ before) never⟩
      rcases performs_cases performed with ⟨rfl, silent, shut⟩ | ⟨stays, world, goes⟩
      · exact ⟨fun _ => shut, fun never => absurd (by simp) never⟩
      have never : .close ∉ done ++ [operation] := by
        simp [before, Ne.symm stays]
      refine ⟨fun member => absurd member never, fun _ => ?_⟩
      have told := opened before
      rw [Trace.answeredCalls_append]
      cases goes with
      | uncalled spared kept =>
          rw [kept, Trace.answeredCalls_of_clientCalls spared.silent, List.append_nil, told]
      | refused call cause allowed reply called unanswered failed kept =>
          rw [kept, unanswered, List.append_nil, told]
      | answered call given allowed reply called heard moved =>
          rw [moved, heard, told_append (told ▸ allowed)]

/-- What the past of a statement says of its state, and of every step that can come next. -/
structure Lifecycle (client : Client state handle) (done : List Operation) (trace : Trace)
    (last : Statement handle) : Prop where
  reported {α : Type} [OfRow α] (world : World state) (operation : Operation) :
    (last.perform client world operation : Step state handle (Answer α)).Reports client world last
  closed : .close ∈ done → last.state = .closed
  opened : .close ∉ done → last.state = .told trace.answeredCalls
  silent {operation : Operation} {α : Type} {step : Step state handle (Answer α)} :
    Performs client last operation step → .close ∈ done → step.trace.clientCalls = []
  begun {operation : Operation} {α : Type} {step : Step state handle (Answer α)} :
    Performs client last operation step → ∀ call ∈ step.trace.clientCalls,
      call.isFetch = true → ∃ params, .execute params ∈ trace.answeredCalls
  kept {operation : Operation} {α : Type} {step : Step state handle (Answer α)} :
    Performs client last operation step → operation ≠ .close →
      step.trace.answeredCalls = [] → step.statement.state = last.state
  moved {operation : Operation} {α : Type} {step : Step state handle (Answer α)} :
    Performs client last operation step → ∀ call ∈ step.trace.answeredCalls,
      step.statement.state = call.leadsTo
  unsealed {params : Parameters} {world : World state} {cause : Error} :
    (last.sealing world.draws params).result = .error cause →
      (last.execute client world params).Uncalled world last
        ∧ (last.execute client world params).statement = last

/-- Every operation tells truly what it did with the client. A statement that has been closed
    stays closed and calls the client no more. Before, it is prepared until an execution is
    answered, and then in the state of the last answered call; nothing is fetched before. An
    operation that gets no answer leaves the state as it is, and one that gets an answer
    changes it even if it fails later. What cannot be encrypted does not reach the client,
    and the statement is as it was. -/
theorem lifecycle_of_history (fresh : first.state = .prepared)
    (history : History client first done trace last) : Lifecycle client done trace last := by
  obtain ⟨closed, opened⟩ := state_of_history fresh history
  refine { reported := ?_, closed, opened, silent := ?_, begun := ?_, kept := ?_, moved := ?_,
           unsealed := ?_ }
  · intro α reads world operation
    exact reports_perform client world last operation
  · intro operation α step performed before
    exact (closed_of_performs performed (closed before)).2
  · intro operation α step performed call member fetches
    by_cases before : .close ∈ done
    · rw [(closed_of_performs performed (closed before)).2] at member
      contradiction
    · exact told_of_isFetch (opened before ▸ allows_of_performs performed member) fetches
  · intro operation α step performed stays unanswered
    exact kept_of_performs performed stays unanswered
  · intro operation α step performed call member
    exact moved_of_performs performed member
  · intro params world cause failed
    obtain ⟨spared, same, -⟩ := uncalled_of_sealing_error client failed
    exact ⟨spared, same⟩

/-- A statement that decrypts a column in which its client gives a number. -/
def unreadable : Statement Nat where
  handle := 0
  sql := "SELECT ssn FROM people"
  expansions := .empty
  sealedColumns := ["ssn"]
  cipher := some (Sample.tag none)
  layout := .standard
  state := .prepared

def numberScript : Sample.Script :=
  ⟨none, [.ofNames ["ssn"] [.int 5]], true, none, none, none, none⟩

/-- The row is refused by the cipher after it was fetched: the operation fails, and the
    statement is fetching all the same. -/
theorem fetching_after_failed_decryption :
    let steps : List (Step Sample.ScriptState Nat (Answer Sample.Person)) :=
      unreadable.run numberScript.client Sample.Script.start [.execute .empty, .fetch none none]
    steps.map (·.result.isOk) = [true, false]
      ∧ steps.getLast?.map (·.statement.state) = some .fetching := by
  intro steps
  have history := history_run (α := Sample.Person)
    (.start : History numberScript.client unreadable [] [] unreadable)
    Sample.Script.start [.execute .empty, .fetch none none]
  have told := (lifecycle_of_history rfl history).opened (by simp)
  exact ⟨rfl, congrArg some told⟩

end History

end Statement

end SealedColumns
