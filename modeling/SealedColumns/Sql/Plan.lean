import SealedColumns.Sql.Command
import SealedColumns.Sql.Scope
import SealedColumns.Text.Slice

/-!
Commands made ready to be carried out. Tables are looked up first, then all names are
resolved in the order in which they count, and then values are checked.
-/

namespace SealedColumns.Sql

/-- A row to be inserted, and the number that it asks for. -/
structure NewRow where
  number : Option Term
  cells : List Term

structure SortKey where
  term : Term
  collation : Collation
  descending : Bool
  nullFirst : Bool

structure ResultTerm where
  name : String
  term : Term
  collation : Collation

/-- What a query yields of the rows of a table, or of a single row without cells. -/
structure Selection where
  table : Option String
  distinct : Bool
  columns : List ResultTerm
  condition : Option Term
  order : List SortKey
  limit : Option Term
  offset : Option Term

inductive Plan where
  | createTable (layout : TableLayout)
  | keepTable
  | insert (table : String) (rows : List NewRow)
  | update (table : String) (number : Option Term) (changes : List (Nat × Term))
      (condition : Option Term)
  | delete (table : String) (condition : Option Term)
  | select (selection : Selection)

namespace Plan

def columnNames : Plan → List String
  | select selection => selection.columns.map (·.name)
  | _ => []

def findTable (layouts : List TableLayout) (table : TableName) : Except EngineFault TableLayout :=
  let isMain := table.database.all (sameName "main")
  match layouts.find? fun layout => isMain && sameName table.name layout.name with
  | some layout => .ok layout
  | none =>
      let written := table.database.elim table.name (· ++ "." ++ table.name)
      .error (.command (.unknownTable written) none)

def findSource (layouts : List TableLayout) (use : TableUse) : Except EngineFault Source := do
  let layout ← findTable layouts use.table
  .ok ⟨use.label.getD layout.name, layout⟩

inductive ResultColumn where
  | column (position : Nat)
  | value (expression : Expression) (label : Option String) (start stop : Nat)

def expandItem (source : Option Source) : ResultItem → Except EngineFault (List ResultColumn)
  | .value expression label start stop => .ok [.value expression label start stop]
  | .all owner =>
      match source.filter fun source => owner.all (sameName source.name) with
      | some source => .ok ((List.range source.layout.columns.length).map .column)
      | none => .error (.command (owner.elim .noTables .unknownTable) none)

def expand (source : Option Source) (items : List ResultItem) :
    Except EngineFault (List ResultColumn) := do
  let columns := (← items.mapM (expandItem source)).flatten
  if resultLimit < columns.length then .error (.command .manyResults none)
  .ok columns

def ResultColumn.expression? : ResultColumn → Option Expression
  | column _ => none
  | value expression _ _ _ => some expression

def ResultColumn.label? : ResultColumn → Option String
  | column _ => none
  | value _ label _ _ => label

def resolveColumn (scope : Scope) : ResultColumn → Except EngineFault Resolved
  | .column position =>
      .ok ((scope.source.map (·.column position)).getD (.value .null))
  | .value expression _ _ _ => scope.resolve expression

def written (text : String) (start stop : Nat) : String :=
  let behind := Text.dropBytes start (text.toList.takeWhile (· != '\x00'))
  let part := Text.takeBytes (stop - start) behind
  String.ofList (part.reverse.dropWhile Lexeme.continuesSpace).reverse

/-- The name of a result: the one given to it, that of its column, or the way it is written. -/
def resultName (scope : Scope) (column : ResultColumn) (term : Term) : String :=
  let declared := match term with
    | .column position => scope.source.map (·.layout.columnName position)
    | .rowNumber => some "rowid"
    | _ => none
  match column with
  | .column _ => declared.getD ""
  | .value _ label start stop => (label.or declared).getD (written scope.text start stop)

def resolveOption (scope : Scope) : Option Expression → Except EngineFault (Option Term)
  | none => .ok none
  | some expression => do .ok (some (← scope.resolve expression).term)

def askedPosition? : Expression → Option Int
  | .numeral digits _ =>
      match Scope.numeralCell false digits with
      | .integer n => if n.toInt ≤ 2147483647 then some n.toInt else none
      | _ => none
  | .signed .plus operand | .collated operand _ => askedPosition? operand
  | .signed .minus operand => (askedPosition? operand).map (-·)
  | _ => none

/-- The label that an expression is, if a collation behind it is left out. -/
def asLabel? (scope : Scope) : Expression → Option Resolved
  | .reference name =>
      if name.owners.isEmpty then
        (scope.labels.find? fun entry => sameName entry.1 name.name).map (·.2)
      else none
  | .collated operand _ => asLabel? scope operand
  | _ => none

def askedCollation? : Expression → Option Collation
  | .collated _ name => Collation.ofName? name
  | _ => none

/-- A term to sort by is a label, the position of a result, or any expression. -/
def resolveOrderTerm (scope : Scope) (results : List Resolved) (number : Nat)
    (expression : Expression) : Except EngineFault Resolved :=
  match asLabel? scope expression, askedPosition? expression with
  | some result, _ => .ok result
  | none, some position =>
      if position < 1 ∨ 65535 < position then
        .error (scope.faultAt (.orderRange number results.length) expression.place?)
      else
        match results[position.toNat - 1]? with
        | some result => .ok result
        | none => .error (.command (.orderRange number results.length) none)
  | none, none => scope.resolve expression

def resolveOrder (scope : Scope) (results : List Resolved) (terms : List OrderTerm) :
    Except EngineFault (List SortKey) := do
  let keys ← terms.zipIdx.mapM fun (order, index) => do
    let found ← resolveOrderTerm scope results (index + 1) order.expression
    let collation := (askedCollation? order.expression).or found.collation
    .ok
      { term := found.term
        collation := collation.getD .binary
        descending := order.descending
        nullFirst := order.nulls.elim (!order.descending) (· == .first) }
  if resultLimit < keys.length then .error (.command .manyOrderTerms none)
  .ok keys

def ofQuery (text : String) (layouts : List TableLayout) (query : Query) :
    Except EngineFault Selection := do
  let sources ← query.sources.mapM (findSource layouts)
  if 1 < sources.length then .error (.command .notCarriedOut none)
  let source := sources.head?
  let columns ← expand source query.items
  let outside : Scope := ⟨text, none, []⟩
  let limit ← resolveOption outside query.limit
  let offset ← resolveOption outside query.offset
  let scope : Scope := ⟨text, source, []⟩
  let results ← columns.mapM (resolveColumn scope)
  let labels := (columns.zip results).filterMap fun (column, result) =>
    column.label?.map (·, result)
  let condition ← resolveOption { scope with labels } query.condition
  let order ← resolveOrder { scope with labels } results query.order
  scope.checkValues query.condition.toList
  scope.checkValues (columns.filterMap (·.expression?))
  scope.checkValues (query.order.map (·.expression))
  scope.checkValues (query.limit.toList ++ query.offset.toList)
  .ok
    { table := source.map (·.layout.name)
      distinct := query.distinct
      columns := (columns.zip results).map fun (column, result) =>
        ⟨resultName scope column result.term, result.term, result.collation.getD .binary⟩
      condition, order, limit, offset }

inductive Target where
  | column (position : Nat)
  | rowNumber
  deriving DecidableEq

def target? (layout : TableLayout) (name : String) : Option Target :=
  match layout.position? name with
  | some position => some (if layout.numbered = some position then .rowNumber else .column position)
  | none => if isRowNumberName name then some .rowNumber else none

/-- Of equal targets the first one counts for a column, and the last one for the number. -/
def newRow (layout : TableLayout) (targets : List Target) (values : List Term) : NewRow where
  number := ((targets.zip values).reverse.find? (·.1 == .rowNumber)).map (·.2)
  cells := layout.columns.mapIdx fun position column =>
    (((targets.zip values).find? (·.1 == .column position)).map (·.2)).getD
      (.constant column.default)

def insertTargets (table : String) (layout : TableLayout) :
    Option (List String) → Except EngineFault (List Target)
  | none => (layout.columnNames.mapM (target? layout)).elim (.ok []) .ok
  | some names => names.mapM fun name =>
      (target? layout name).elim (.error (.command (.unknownInserted table name) none)) .ok

/-- Rows are as wide as the table, or as the list of columns. -/
def checkWidth (table : String) (layout : TableLayout) (columns : Option (List String))
    (width : Nat) : Except EngineFault Unit :=
  match columns with
  | none =>
      if width = layout.columns.length then .ok ()
      else .error (.command (.valueCount table layout.columns.length width) none)
  | some columns =>
      if width = columns.length then .ok ()
      else .error (.command (.valuesForColumns width columns.length) none)

/-- The values of runs, of which the last one is resolved first. A run is as wide as the
    one behind it. -/
def resolveRuns (scope : Scope) : List ValueRun → Except EngineFault (List (List Resolved))
  | [] => .ok []
  | run :: behind => do
      let later ← resolveRuns scope behind
      let rows ← run.rows.mapM (·.mapM scope.resolve)
      match later.head?, rows.head? with
      | some next, some row =>
          if next.length != row.length then .error (.command .unevenRows none)
      | _, _ => .ok ()
      .ok (rows ++ later)

/-- Single rows are checked together, and beside longer runs one after the other. The
    rows of a longer run have been checked before. -/
def checkRuns (scope : Scope) (runs : List ValueRun) : Except EngineFault Unit :=
  if runs.all (·.rows.length = 1) then
    scope.checkValues (runs.flatMap fun run => run.rows.flatten)
  else runs.forM fun run => scope.checkValues run.rows.flatten

/-- The values of a single run are checked behind its width, those of several before. -/
def ofInsert (text : String) (layouts : List TableLayout) (table : TableName)
    (columns : Option (List String)) (runs : List ValueRun) : Except EngineFault Plan := do
  let layout ← findTable layouts table
  let targets ← insertTargets table.name layout columns
  let scope : Scope := ⟨text, none, []⟩
  let width := (runs.flatMap (·.rows) |>.headD []).length
  if 1 < runs.length then
    if runs.any fun run => run.rows.any (resultLimit < ·.length) then
      .error (.command .manyResults none)
  let values ← resolveRuns scope runs
  if 1 < runs.length then checkRuns scope runs
  checkWidth table.name layout columns width
  checkRuns scope runs
  .ok (.insert layout.name
    (values.map fun row => newRow layout targets (row.map (·.term))))

def resolveChanges (scope : Scope) (layout : TableLayout) :
    List (String × Expression) → Except EngineFault (List (Target × Term))
  | [] => .ok []
  | (column, expression) :: rest => do
      let value ← scope.resolve expression
      match target? layout column with
      | none => .error (.command (.unknownColumn column) none)
      | some target => return (target, value.term) :: (← resolveChanges scope layout rest)

/-- Of several changes of one column the last one counts. -/
def ofUpdate (text : String) (layouts : List TableLayout) (use : TableUse)
    (changes : List (String × Expression)) (condition : Option Expression) :
    Except EngineFault Plan := do
  let source ← findSource layouts use
  let scope : Scope := ⟨text, some source, []⟩
  let resolved := (← resolveChanges scope source.layout changes).reverse
  let term ← resolveOption scope condition
  scope.checkValues condition.toList
  scope.checkValues (changes.map (·.2))
  let columnChanges := resolved.filterMap fun (target, value) =>
    match target with
    | .column position => some (position, value)
    | .rowNumber => none
  let number := (resolved.find? (·.1 == .rowNumber)).map (·.2)
  .ok (.update source.layout.name number columnChanges term)

def ofDelete (text : String) (layouts : List TableLayout) (use : TableUse)
    (condition : Option Expression) : Except EngineFault Plan := do
  let source ← findSource layouts use
  let scope : Scope := ⟨text, some source, []⟩
  let term ← resolveOption scope condition
  scope.checkValues condition.toList
  .ok (.delete source.layout.name term)

def ofCommand (text : String) (layouts : List TableLayout) : Command → Except EngineFault Plan
  | .createTable layout => .ok (.createTable layout)
  | .keepTable => .ok .keepTable
  | .insert table columns runs => ofInsert text layouts table columns runs
  | .select query => (ofQuery text layouts query).map .select
  | .update use changes condition => ofUpdate text layouts use changes condition
  | .delete use condition => ofDelete text layouts use condition

end Plan

end SealedColumns.Sql
