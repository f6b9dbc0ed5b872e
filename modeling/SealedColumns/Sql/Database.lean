import SealedColumns.Sql.Plan

/-!
Tables in memory, and what commands do to them. A row that cannot be kept undoes its
whole command, and then no rows are changed.
-/

namespace SealedColumns.Sql

structure Prepared where
  plan : Plan
  slots : List (String × Nat)

/-- `changes` is the number of rows that the last change of rows affected, and
    `statements` are those kept, the one used last first. -/
structure Database where
  tables : List Table
  changes : Nat
  statements : List (String × Prepared)

namespace Database

def empty : Database := ⟨[], 0, []⟩

def layouts (db : Database) : List TableLayout := db.tables.map (·.layout)

def table? (db : Database) (name : String) : Option Table :=
  db.tables.find? (·.layout.name == name)

def putTable (db : Database) (table : Table) : Database :=
  { db with tables := db.tables.map fun other =>
      if other.layout.name == table.layout.name then table else other }

def noRow : TableRow := ⟨0, []⟩

def insertRows (bound : Nat → Cell) (table : Table) : List NewRow → Except Fault Table
  | [] => .ok table
  | row :: rest => do
      let value (term : Term) : Cell := term.evaluate bound noRow
      let table ← table.insert (row.number.map value) (row.cells.map value)
      insertRows bound table rest

def changedCells (bound : Nat → Cell) (changes : List (Nat × Term)) (row : TableRow) : List Cell :=
  row.cells.mapIdx fun position cell =>
    match changes.find? (·.1 == position) with
    | some (_, term) => term.evaluate bound row
    | none => cell

/-- Changes rows one after the other, each beside the others as they are by then. -/
def updateRows (bound : Nat → Cell) (number : Option Term) (changes : List (Nat × Term))
    (table : Table) : List TableRow → Except Fault Table
  | [] => .ok table
  | row :: rest => do
      let table ← table.replace row (number.map (·.evaluate bound row))
        (changedCells bound changes row)
      updateRows bound number changes table rest

/-- What a change of a table leaves, with the number of rows changed. -/
def change (db : Database) (name : String) (alter : Table → Except Fault (Nat × Table)) :
    Except EngineFault Nat × Database :=
  match db.table? name with
  | none => (.error (.command (.unknownTable name) none), db)
  | some table =>
      match alter table with
      | .error fault => (.error (.command fault none), { db with changes := 0 })
      | .ok (count, table) => (.ok count, { db.putTable table with changes := count })

def matching (bound : Nat → Cell) (table : Table) (condition : Option Term) : List TableRow :=
  table.rows.filter fun row => Term.holds bound row condition

def precedes (order : List SortKey) : List Cell → List Cell → Bool
  | a :: rest, b :: more =>
      match order with
      | [] => true
      | key :: keys =>
          if a == .null || b == .null then
            if a == b then precedes keys rest more else (a == .null) == key.nullFirst
          else
            match (a.collated key.collation).order (b.collated key.collation) with
            | .eq => precedes keys rest more
            | .lt => !key.descending
            | .gt => key.descending
  | _, _ => true

/-- Rows whose results equal those of one before them are left out. -/
def distinctRows (columns : List ResultTerm) (rows : List (List Cell × List Cell)) :
    List (List Cell × List Cell) :=
  let compared (row : List Cell × List Cell) : List Cell :=
    (columns.zip row.1).map fun (column, cell) => cell.collated column.collation
  rows.foldl (fun kept row =>
    let isRepeated := kept.any fun other =>
      ((compared other).zip (compared row)).all fun (a, b) => a.order b == .eq
    if isRepeated then kept else kept ++ [row]) []

def askedCount (bound : Nat → Cell) (term : Term) : Except Fault Int :=
  ((term.evaluate bound noRow).integer?.map (·.toInt)).elim (.error .mismatch) .ok

def limited (bound : Nat → Cell) (selection : Selection) (rows : List (List Cell)) :
    Except Fault (List (List Cell)) := do
  let limit ← selection.limit.mapM (askedCount bound)
  let offset ← selection.offset.mapM (askedCount bound)
  let rows := rows.drop (offset.getD 0).toNat
  match limit with
  | some count => .ok (if count < 0 then rows else rows.take count.toNat)
  | none => .ok rows

def select (db : Database) (bound : Nat → Cell) (selection : Selection) :
    Except Fault (List (List Cell)) :=
  let rows := match selection.table.bind db.table? with
    | some table => table.rows
    | none => [noRow]
  let chosen := (rows.filter fun row => Term.holds bound row selection.condition).map fun row =>
    (selection.columns.map fun column => column.term.evaluate bound row,
      selection.order.map fun key => key.term.evaluate bound row)
  let chosen := if selection.distinct then distinctRows selection.columns chosen else chosen
  let sorted := if selection.order.isEmpty then chosen
    else chosen.mergeSort fun a b => precedes selection.order a.2 b.2
  limited bound selection (sorted.map (·.1))

/-- Carries out a command and gives the number of rows changed. A query changes none,
    and the making of a table does not count. -/
def execute (db : Database) (bound : Nat → Cell) : Plan → Except EngineFault Nat × Database
  | .createTable layout => (.ok db.changes, { db with tables := db.tables ++ [⟨layout, []⟩] })
  | .keepTable => (.ok db.changes, db)
  | .insert name rows =>
      db.change name fun table => return (rows.length, ← insertRows bound table rows)
  | .update name number changes condition =>
      db.change name fun table =>
        let rows := matching bound table condition
        return (rows.length, ← updateRows bound number changes table rows)
  | .delete name condition =>
      db.change name fun table =>
        let (gone, rows) := table.rows.partition fun row => Term.holds bound row condition
        .ok (gone.length, { table with rows })
  | .select selection =>
      match db.select bound selection with
      | .error fault => (.error (.command fault none), db)
      | .ok _ => (.ok db.changes, db)

def query (db : Database) (bound : Nat → Cell) : Plan → Except EngineFault (List (List Cell))
  | .select selection => (db.select bound selection).mapError (.command · none)
  | _ => .ok []

end Database

end SealedColumns.Sql
