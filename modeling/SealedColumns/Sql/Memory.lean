import SealedColumns.Client.Buffered
import SealedColumns.Sql.Command.Reader
import SealedColumns.Sql.Database
import SealedColumns.Text.Blank

/-!
The engine over tables held in memory. A prepared text holds one command, white
space around it being left out; a batch holds any number, which are run one by
one, so those before a faulty one keep their effect. The statements prepared last are
kept: one that is kept is not checked again before it is executed, and then its faults
are told without a place.
-/

namespace SealedColumns.Sql.Memory

def keptStatements : Nat := 16

/-- The first command of a text made ready, none if there is none, and the rest. -/
def prepareFirst (db : Database) (sql : String) :
    Except EngineFault (Option Prepared × String) := do
  let first ← FirstCommand.read (db.layouts.map (·.name)) sql
  match first.command with
  | none => .ok (none, first.rest)
  | some (command, slots) =>
      let plan ← Plan.ofCommand sql db.layouts command
      .ok (some ⟨plan, slots.names⟩, first.rest)

/-- The only command of a text. Texts behind the first command must be free of
    commands; `room` bounds their number. -/
def prepareFrom (db : Database) (room : Nat) (sql : String) :
    Except EngineFault (Option Prepared) := do
  let (prepared, rest) ← prepareFirst db sql
  match room with
  | 0 => .ok prepared
  | room + 1 =>
      if rest.isEmpty then .ok prepared
      else
        match ← prepareFrom db room rest with
        | none => .ok prepared
        | some _ => .error .severalStatements

def kept? (db : Database) (sql : String) : Option Prepared :=
  (db.statements.find? fun entry => entry.1 == Text.trim sql).map (·.2)

def keep (db : Database) (sql : String) (prepared : Prepared) : Database :=
  let others := db.statements.filter fun entry => entry.1 != Text.trim sql
  { db with statements := ((Text.trim sql, prepared) :: others).take keptStatements }

/-- A statement that is kept, or else one made ready. -/
def prepare (db : Database) (sql : String) :
    Except EngineFault (Option Prepared) × Database :=
  match kept? db sql with
  | some prepared => (.ok (some prepared), keep db sql prepared)
  | none =>
      match prepareFrom db sql.length (Text.trim sql) with
      | .error fault => (.error fault, db)
      | .ok none => (.ok none, db)
      | .ok (some prepared) => (.ok (some prepared), keep db sql prepared)

/-- The first binding whose key the command does not contain is refused. -/
def unknownKey? (slots : List (String × Nat)) (bindings : Bindings) : Option EngineFault :=
  (bindings.entries.find? fun entry => !slots.any (·.1 == entry.1)).map fun entry =>
    .unknownParameter entry.1

/-- What is bound to parameters by their numbers, the last binding first. -/
def boundNumbers (slots : List (String × Nat)) (bindings : Bindings) : List (Nat × Cell) :=
  (bindings.entries.filterMap fun (key, cell) =>
    (slots.find? (·.1 == key)).map fun entry => (entry.2, cell.stored)).reverse

def boundCell (numbers : List (Nat × Cell)) (slot : Nat) : Cell :=
  ((numbers.find? (·.1 == slot)).map (·.2)).getD .null

def withoutPlace : EngineFault → EngineFault
  | .command fault _ => .command fault none
  | fault => fault

/-- A kept statement made ready for the tables as they are. -/
def refresh (db : Database) (sql : String) : Except EngineFault (Option Prepared) :=
  (prepareFrom db sql.length (Text.trim sql)).mapError withoutPlace

def ready (db : Database) (sql : String) (bindings : Bindings) : Except EngineFault Prepared := do
  let prepared ← (prepare db sql).1
  match unknownKey? ((prepared.map (·.slots)).getD []) bindings with
  | some fault => .error fault
  | none => ((← refresh db sql).elim (.error .noStatement) .ok)

def execute (db : Database) (sql : String) (bindings : Bindings) :
    Except EngineFault Nat × Database :=
  match ready db sql bindings with
  | .error fault => (.error fault, db)
  | .ok prepared => db.execute (boundCell (boundNumbers prepared.slots bindings)) prepared.plan

def query (db : Database) (sql : String) (bindings : Bindings) :
    Except EngineFault (List (Except EngineFault (List Cell))) × Database :=
  let result := do
    let prepared ← ready db sql bindings
    let rows ← db.query (boundCell (boundNumbers prepared.slots bindings)) prepared.plan
    .ok (rows.map .ok)
  (result, db)

def engine : Engine Database where
  prepare db sql :=
    let (prepared, db) := prepare db sql
    (prepared.map fun prepared => (prepared.map (·.plan.columnNames)).getD [], db)
  execute := execute
  query := query

def client : Client Database BufferedHandle := engine.client

/-- Runs the commands of a text in turn, without bindings, up to the first that
    fails; `room` bounds their number. -/
def batchFrom (db : Database) (room : Nat) (sql : String) :
    Except EngineFault Unit × Database :=
  match room with
  | 0 => (.ok (), db)
  | room + 1 =>
      match prepareFirst db sql with
      | .error fault => (.error fault, db)
      | .ok (none, _) => (.ok (), db)
      | .ok (some prepared, rest) =>
          match db.execute (fun _ => .null) prepared.plan with
          | (.error fault, db) => (.error fault, db)
          | (.ok _, db) => if rest.isEmpty then (.ok (), db) else batchFrom db room rest

def batch (db : Database) (sql : String) : Except Error Unit × Database :=
  let (result, db) := batchFrom db (sql.length + 1) sql
  (result.mapError .engine, db)

/-- Only a private database can be opened: this engine has no files. -/
def openPath (path : String) : Except Error Database :=
  match (Text.bytes path).findIdx? (· == 0) with
  | some position => .error (.engine (.nulInPath position))
  | none => if path = ":memory:" then .ok .empty else .error (.engine (.cannotOpen path))

end SealedColumns.Sql.Memory
