import SealedColumns.Client

/-!
A client that plays a script: it gives the same rows after each execution, fails
where the script says so, and keeps a log of the calls it gets. A handle is a
cursor into the rows, and counts also the fetches past their end.
-/

namespace SealedColumns.Sample

/-- An error, raised at every call or only at those with the listed numbers. -/
structure Failure where
  error : Error
  calls : Option (List Nat)

structure Script where
  columns : Option (List String)
  rows : List Row
  executeResult : Bool
  prepareFailure : Option Failure
  executeFailure : Option Failure
  fetchFailure : Option Failure
  fetchRestFailure : Option Failure

inductive ReceivedCall where
  | prepare (sql : String)
  | execute (params : Parameters)
  | fetch (cursor : Nat)
  | fetchRest (cursor : Nat)

/-- How many executions there were, and the calls, the latest first. -/
structure ScriptState where
  executions : Nat
  received : List ReceivedCall

def Failure.at? (failure : Option Failure) (number : Nat) : Option Error :=
  match failure with
  | none => none
  | some failure =>
      if failure.calls.all (·.contains number) then some failure.error else none

def ScriptState.record (state : ScriptState) (call : ReceivedCall) : ScriptState :=
  { state with received := call :: state.received }

namespace Script

def prepare (script : Script) (state : ScriptState) (sql : String) :
    Except Error Nat × ScriptState :=
  let state := state.record (.prepare sql)
  match Failure.at? script.prepareFailure 0 with
  | some error => (.error error, state)
  | none => (.ok 0, state)

def execute (script : Script) (state : ScriptState) (cursor : Nat)
    (params : Parameters) : Except Error Bool × Nat × ScriptState :=
  let number := state.executions
  let state := { state.record (.execute params) with executions := number + 1 }
  match Failure.at? script.executeFailure number with
  | some error => (.error error, cursor, state)
  | none => (.ok script.executeResult, 0, state)

def fetch (script : Script) (state : ScriptState) (cursor : Nat) :
    Except Error (Option Row) × Nat × ScriptState :=
  let state := state.record (.fetch cursor)
  match Failure.at? script.fetchFailure cursor with
  | some error => (.error error, cursor, state)
  | none => (.ok script.rows[cursor]?, cursor + 1, state)

def fetchRest (script : Script) (state : ScriptState) (cursor : Nat) :
    Except Error ResultSet × Nat × ScriptState :=
  let state := state.record (.fetchRest cursor)
  match Failure.at? script.fetchRestFailure cursor with
  | some error => (.error error, cursor, state)
  | none =>
      let named := match script.columns with
        | some names => ResultSet.empty.setNames names
        | none => .empty
      (.ok ((script.rows.drop cursor).foldl ResultSet.addRow named),
        script.rows.length, state)

def client (script : Script) : Client ScriptState Nat where
  prepare := script.prepare
  execute := script.execute
  fetch := script.fetch
  fetchRest := script.fetchRest
  affected _ cursor := script.rows.length + cursor

def start : World ScriptState := ⟨⟨0, []⟩, 0⟩

end Script

end SealedColumns.Sample
