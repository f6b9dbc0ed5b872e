import SealedColumns.Sql.Expression
import SealedColumns.Sql.Table

/-!
The commands of a small SQL: tables, the insertion, update and deletion of rows, and
queries of one table or of none.
-/

namespace SealedColumns.Sql

structure TableName where
  database : Option String
  name : String
  deriving DecidableEq

structure TableUse where
  table : TableName
  label : Option String
  deriving DecidableEq

/-- What a query yields. A value is written between two places of the text. -/
inductive ResultItem where
  | all (owner : Option String)
  | value (expression : Expression) (label : Option String) (start stop : Nat)

structure OrderTerm where
  expression : Expression
  descending : Bool
  nulls : Option NullOrder

/-- The tables of a query are those it names; with more than one, it joins them. -/
structure Query where
  distinct : Bool
  items : List ResultItem
  sources : List TableUse
  condition : Option Expression
  order : List OrderTerm
  limit : Option Expression
  offset : Option Expression

/-- Rows of values that are made one after the other as they are read; a row that is made
    later is a run of its own. -/
structure ValueRun where
  rows : List (List Expression)

/-- A table that exists already need not be made. -/
inductive Command where
  | createTable (layout : TableLayout)
  | keepTable
  | insert (table : TableName) (columns : Option (List String)) (runs : List ValueRun)
  | select (query : Query)
  | update (use : TableUse) (changes : List (String × Expression)) (condition : Option Expression)
  | delete (use : TableUse) (condition : Option Expression)

end SealedColumns.Sql
