import SealedColumns.Client
import SealedColumns.Sql.Cell

/-!
A client over a database engine. An execution keeps all its rows on the handle,
from where they are fetched. Parameters are converted and the statement is
prepared before the rows of the execution before are given up.
-/

namespace SealedColumns

open Sql (Bindings Cell)

/-- A database engine. `prepare` gives the names of a statement's columns, none if
    it yields no rows, and the engine may keep the statement. Each row of a query is
    read in a step that may fail. -/
structure Engine (database : Type) where
  prepare : database → String → Except EngineFault (List String) × database
  execute : database → String → Bindings → Except EngineFault Nat × database
  query : database → String → Bindings →
    Except EngineFault (List (Except EngineFault (List Cell))) × database

structure BufferedHandle where
  sql : String
  columns : Option (List String)
  pending : List Row
  affected : Nat

namespace Engine

variable {database : Type}

/-- Reads rows up to the first that fails. -/
def gather (results : ResultSet) :
    List (Except EngineFault (List Cell)) → Except EngineFault ResultSet
  | [] => .ok results
  | .error fault :: _ => .error fault
  | .ok cells :: rest => gather (results.addValues (cells.map Cell.toValue)) rest

def prepareHandle (engine : Engine database) (db : database) (sql : String) :
    Except Error BufferedHandle × database :=
  match engine.prepare db sql with
  | (.error fault, db) => (.error (.engine fault), db)
  | (.ok _, db) => (.ok ⟨sql, none, [], 0⟩, db)

def executeHandle (engine : Engine database) (db : database) (handle : BufferedHandle)
    (params : Parameters) : Except Error Bool × BufferedHandle × database :=
  match Bindings.ofParams params with
  | .error fault => (.error (.parameter fault), handle, db)
  | .ok bindings =>
      match engine.prepare db handle.sql with
      | (.error fault, db) => (.error (.engine fault), handle, db)
      | (.ok [], db) =>
          let cleared := { handle with columns := none, pending := [] }
          match engine.execute db handle.sql bindings with
          | (.error fault, db) => (.error (.engine fault), cleared, db)
          | (.ok affected, db) => (.ok true, { cleared with affected }, db)
      | (.ok names, db) =>
          let cleared := { handle with pending := [] }
          match engine.query db handle.sql bindings with
          | (.error fault, db) => (.error (.engine fault), cleared, db)
          | (.ok rows, db) =>
              match gather (ResultSet.empty.setNames names) rows with
              | .error fault => (.error (.engine fault), cleared, db)
              | .ok results =>
                  (.ok true,
                    { handle with
                      columns := results.names?
                      pending := results.rows
                      affected := results.affected }, db)

end Engine

namespace BufferedHandle

def fetch (handle : BufferedHandle) : Option Row × BufferedHandle :=
  match handle.pending with
  | [] => (none, handle)
  | row :: rest => (some row, { handle with pending := rest })

def fetchRest (handle : BufferedHandle) : ResultSet × BufferedHandle :=
  let named := match handle.columns with
    | some names => ResultSet.empty.setNames names
    | none => .empty
  (handle.pending.foldl ResultSet.addRow named, { handle with pending := [] })

end BufferedHandle

def Engine.client {database : Type} (engine : Engine database) :
    Client database BufferedHandle where
  prepare := engine.prepareHandle
  execute := engine.executeHandle
  fetch db handle := (.ok handle.fetch.1, handle.fetch.2, db)
  fetchRest db handle := (.ok handle.fetchRest.1, handle.fetchRest.2, db)
  affected _ handle := handle.affected

end SealedColumns
