import SealedColumns.Client
import SealedColumns.Opening
import SealedColumns.Sealing

/-!
Prepared statements. Placeholders are made distinct when a statement is prepared;
parameters are expanded and encrypted before the client executes it, and rows are
shaped and decrypted after the client fetched them. A statement takes on a new
state only when a call to the client succeeds, and a closed one calls it no more.
-/

namespace SealedColumns

open Placeholder (Expansions)

/-- Values made from a row. -/
class OfRow (α : Type) where
  ofRow : Row → Except Error α

namespace Statement

inductive State where
  | prepared
  | executed
  | fetching
  | closed
  deriving DecidableEq

def State.inspect : State → String
  | .prepared => "Prepared"
  | .executed => "Executed"
  | .fetching => "Fetching"
  | .closed => "Closed"

end Statement

structure Statement (handle : Type) where
  handle : handle
  sql : String
  expansions : Expansions
  sealedColumns : List String
  cipher : Option Cipher
  layout : RowLayout
  state : Statement.State

namespace Statement

variable {state handle α : Type}

/-- What an operation gives, what it leaves behind, and what it did. -/
structure Step (state handle α : Type) where
  result : Except Error α
  statement : Statement handle
  world : World state
  trace : Trace

structure Preparation (state handle : Type) where
  result : Except Error (Statement handle)
  world : World state
  trace : Trace

def prepare (client : Client state handle) (world : World state) (sql : String)
    (cipher : Option Cipher) (layout : RowLayout) : Preparation state handle :=
  let found := Placeholder.scan sql
  let renamed := Placeholder.renameWith sql found
  let started : Event :=
    .preparing found.occurrences.length renamed.replacements.length
  let (answer, after) := client.prepare world.client renamed.sql
  let world := { world with client := after }
  match answer with
  | .error cause =>
      { result := .error (.preparation cause)
        world
        trace := [.event started, .client (.prepare renamed.sql) false] }
  | .ok handle =>
      { result := .ok
          { handle
            sql := renamed.sql
            expansions := renamed.expansions
            sealedColumns := []
            cipher
            layout
            state := .prepared }
        world
        trace := [.event started, .client (.prepare renamed.sql) true] }

/-- Sets the encrypted columns, each once; a cipher is replaced only by another one. -/
def encryptColumns (statement : Statement handle) (columns : List String)
    (cipher : Option Cipher) : Statement handle :=
  { statement with
    sealedColumns := columns.eraseDups
    cipher := cipher.or statement.cipher }

def withCipher (statement : Statement handle) (cipher : Option Cipher) : Statement handle :=
  { statement with cipher }

def withLayout (statement : Statement handle) (layout : RowLayout) :
    Statement handle :=
  { statement with layout }

def close (statement : Statement handle) : Statement handle :=
  { statement with state := .closed }

def execute (client : Client state handle) (world : World state)
    (statement : Statement handle) (params : Parameters) : Step state handle Bool :=
  if statement.state = .closed then
    ⟨.error (.execution (.other .closed)), statement, world, []⟩
  else
    let sealing := sealParameters (statement.expansions.expand params)
      statement.sealedColumns statement.expansions statement.cipher world.draws
    let world := { world with draws := sealing.draws }
    match sealing.result with
    | .error cause => ⟨.error cause, statement, world, sealing.trace⟩
    | .ok encrypted =>
        let (answer, handle, after) :=
          client.execute world.client statement.handle sealing.params
        let statement := { statement with handle }
        let world := { world with client := after }
        let traced (succeeded : Bool) : Trace := sealing.trace
          ++ [.event (.executing sealing.params.size encrypted),
              .client (.execute sealing.params) succeeded]
        match answer with
        | .error cause => ⟨.error (.execution cause), statement, world, traced false⟩
        | .ok done =>
            ⟨.ok done, { statement with state := .executed }, world, traced true⟩

/-- Why a statement has no rows to fetch. -/
def fetchFault? (statement : Statement handle) : Option FetchFault :=
  match statement.state with
  | .prepared => some .notExecuted
  | .closed => some .closed
  | .executed | .fetching => none

/-- The next row as the client gives it. -/
def nextRow (client : Client state handle) (world : World state)
    (statement : Statement handle) : Step state handle (Option Row) :=
  match statement.fetchFault? with
  | some fault => ⟨.error (.fetch fault), statement, world, []⟩
  | none =>
      let (answer, handle, after) := client.fetch world.client statement.handle
      let statement := { statement with handle }
      let world := { world with client := after }
      match answer with
      | .error cause => ⟨.error cause, statement, world, [.client .fetch false]⟩
      | .ok row =>
          ⟨.ok row, { statement with state := .fetching }, world, [.client .fetch true]⟩

/-- All rows that are left, as the client gives them. -/
def remainingRows (client : Client state handle) (world : World state)
    (statement : Statement handle) : Step state handle ResultSet :=
  match statement.fetchFault? with
  | some fault => ⟨.error (.fetch fault), statement, world, []⟩
  | none =>
      let (answer, handle, after) := client.fetchRest world.client statement.handle
      let statement := { statement with handle }
      let world := { world with client := after }
      match answer with
      | .error cause => ⟨.error cause, statement, world, [.client .fetchRest false]⟩
      | .ok results =>
          ⟨.ok results, { statement with state := .fetching }, world,
            [.client .fetchRest true]⟩

/-- Goes on with what a step gave, if it gave something. -/
def Step.andThen {β : Type} (step : Step state handle α)
    (next : α → Except Error β × Trace) : Step state handle β :=
  match step.result with
  | .error cause => ⟨.error cause, step.statement, step.world, step.trace⟩
  | .ok given =>
      let (result, trace) := next given
      ⟨result, step.statement, step.world, step.trace ++ trace⟩

/-- The columns given for one fetch, or else the configured ones. -/
def columnsFor (statement : Statement handle) (columns : Option (List String)) :
    List String :=
  columns.getD statement.sealedColumns

/-- The layout given for one fetch, or else the configured one. -/
def layoutFor (statement : Statement handle) (layout : Option RowLayout) : RowLayout :=
  layout.getD statement.layout

/-- The next row in its shape, decrypted; nothing once there are no more. -/
def fetch (client : Client state handle) (world : World state)
    (statement : Statement handle) (columns : Option (List String))
    (layout : Option RowLayout) : Step state handle (Option ShapedRow) :=
  (nextRow client world statement).andThen fun
    | none => (.ok none, [])
    | some row =>
        let opened := openCells statement.cipher (statement.columnsFor columns)
          (ShapedRow.ofRow (statement.layoutFor layout).kind row)
        (opened.result.map (fun _ => some opened.row), opened.trace)

/-- The next row decrypted and made into a value. -/
def fetchAs [OfRow α] (client : Client state handle) (world : World state)
    (statement : Statement handle) (columns : Option (List String)) :
    Step state handle (Option α) :=
  (nextRow client world statement).andThen fun
    | none => (.ok none, [])
    | some row =>
        let opened := openCells statement.cipher (statement.columnsFor columns) row
        match opened.result with
        | .error cause => (.error cause, opened.trace)
        | .ok () => ((OfRow.ofRow opened.row).map some, opened.trace)

/-- All rows that are left in their shape, grouped if the layout says so, decrypted. -/
def fetchRest (client : Client state handle) (world : World state)
    (statement : Statement handle) (columns : Option (List String))
    (layout : Option RowLayout) : Step state handle RowSet :=
  (remainingRows client world statement).andThen fun results =>
    let opened := openRowSet statement.cipher (statement.columnsFor columns)
      (results.shaped (statement.layoutFor layout))
    (opened.result.map (fun _ => opened.row), opened.trace)

/-- Decrypts each row and makes it into a value before the next one is touched. -/
def readRows [OfRow α] (cipher : Option Cipher) (columns : List String) :
    List Row → Except Error (List α) × Trace
  | [] => (.ok [], [])
  | row :: rest =>
      let opened := openCells cipher columns row
      match opened.result with
      | .error cause => (.error cause, opened.trace)
      | .ok () =>
          match OfRow.ofRow opened.row with
          | .error cause => (.error cause, opened.trace)
          | .ok read =>
              let (reads, trace) := readRows cipher columns rest
              (reads.map (read :: ·), opened.trace ++ trace)

def fetchRestAs [OfRow α] (client : Client state handle) (world : World state)
    (statement : Statement handle) : Step state handle (List α) :=
  (remainingRows client world statement).andThen fun results =>
    readRows statement.cipher statement.sealedColumns results.rows

def affected (client : Client state handle) (world : World state)
    (statement : Statement handle) : Nat :=
  client.affected world.client statement.handle

def inspect (statement : Statement handle) : String :=
  let entries := statement.expansions.entries.map fun (base, generated) =>
    Text.quoted base ++ ": " ++ Text.bracketed (generated.map Text.quoted)
  Text.openRecord "PreparedStatement"
    [("sql", Text.quoted statement.sql),
     ("expansions", Text.record "ExpansionTable" [("entries", Text.braced entries)]),
     ("encrypted_columns", Text.bracketed (statement.sealedColumns.map Text.quoted)),
     ("has_cipher", if statement.cipher.isSome then "true" else "false"),
     ("fetch_mode", statement.layout.inspect),
     ("state", statement.state.inspect)]

end Statement

end SealedColumns
