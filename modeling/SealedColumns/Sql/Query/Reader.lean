import SealedColumns.Sql.Command
import SealedColumns.Sql.Expression.Reader
import SealedColumns.Sql.Scope

/-!
Queries read from tokens. Joins, groups and compounds are read for the sake of the
faults in them, but they lie beyond the engine.
-/

namespace SealedColumns.Sql

namespace ValueRun

/-- The rows of a run stand in it with the last one first while it is read. Constant
    rows join it, unless it is a single row that is not constant or has an affinity. -/
def takes (run : ValueRun) (row : List Expression) : Bool :=
  Expression.isConstant.areConstant row &&
    match run.rows with
    | [first] => Expression.isConstant.areConstant first && !first.any (·.hasAffinity)
    | _ => true

/-- The faults of a row that joins a run. The first row is made with the second. -/
def rowFault (scope : Scope) (run : ValueRun) (row : List Expression) :
    Except EngineFault Unit := do
  if let [first] := run.rows then
    if resultLimit < first.length then .error (.command .manyResults none)
    let _ ← Scope.resolve.resolveEach scope first
    scope.checkValues first
  if row.length != (run.rows.headD []).length then .error (.command .unevenRows none)
  scope.checkValues row

end ValueRun

namespace Reader

variable (nested : Nested)

def tableName : Reader TableName := do
  let first ← name
  if ← skipMark "." then return ⟨some first, ← name⟩
  return ⟨none, first⟩

def label : Reader (Option String) := do
  if ← skipKeyword "AS" then return some (← name)
  if ← nextIs Token.isLabel then return some (← accept Token.isLabel).text
  return none

/-- Which index is to be used, which must not be one. -/
def indexing : Reader Unit := do
  if ← skipKeyword "NOT" then keyword "INDEXED"
  else if ← skipKeyword "INDEXED" then
    keyword "BY"
    let _ ← name
    goBeyond

/-- How a table is joined to those before it; the first one has none before it. -/
def joinCondition (isFirst : Bool) : Reader Unit := do
  if ← skipKeyword "ON" then
    let _ ← nested.expression 1
    if isFirst then suspend (.joinRequired "ON") none
  else if ← skipKeyword "USING" then
    let _ ← inParentheses (separated name)
    if isFirst then suspend (.joinRequired "USING") none

def sourceTerm (isFirst : Bool) : Reader (Option TableUse) := do
  if ← skipMark "(" then
    goBeyond
    if ← nextIs startsQuery then nested.query else nested.sources
    mark ")"
    let _ ← label
    joinCondition nested isFirst
    return none
  let table ← tableName
  if ← skipMark "(" then
    goBeyond
    let _ ← expressionsBefore nested ")"
    mark ")"
  let label ← label
  indexing
  joinCondition nested isFirst
  return some ⟨table, label⟩

def joinOperator : Reader Bool := do
  if ← skipMark "," then return true
  if ← skipKeyword "JOIN" then return true
  if ← skip Token.isJoining then
    if ← skipKeyword "JOIN" then return true
    let _ ← name
    if ← skipKeyword "JOIN" then return true
    let _ ← name
    keyword "JOIN"
    return true
  return false

def furtherSources (room : Nat) (seen : List TableUse) : Reader (List TableUse) := do
  match room with
  | 0 => return seen.reverse
  | room + 1 =>
      if ← joinOperator then
        let use ← sourceTerm nested false
        furtherSources room (use.toList ++ seen)
      else return seen.reverse

def sources : Reader (List TableUse) := do
  let first ← sourceTerm nested true
  furtherSources nested (← get).tokens.length first.toList

def resultItem : Reader ResultItem := do
  if ← skipMark "*" then return .all none
  let isQualified := match (← get).tokens with
    | owner :: dot :: star :: _ => owner.isName && dot.isMark "." && star.isMark "*"
    | _ => false
  if isQualified then
    let owner ← name
    behind 1 (mark ".")
    behind 2 (mark "*")
    return .all (some owner)
  let start ← offset
  let node ← nested.expression 1
  let stop ← offset
  return .value node.expression (← label) start stop

def condition : Reader (Option Node) := do
  if ← skipKeyword "WHERE" then return some (← behind 1 (nested.expression 1))
  return none

def grouping : Reader Unit := do
  if ← skipKeyword "GROUP" then
    behind 1 (keyword "BY")
    let _ ← behind 2 (expressions nested)
    goBeyond
  if ← behind 1 (skipKeyword "HAVING") then
    let _ ← behind 2 (nested.expression 1)
    goBeyond

def orderTerm : Reader OrderTerm := do
  let (node, descending, nulls) ← sortTerm nested
  return ⟨node.expression, descending, nulls⟩

def order : Reader (List OrderTerm) := do
  if ← skipKeyword "ORDER" then
    behind 1 (keyword "BY")
    behind 2 (separated (orderTerm nested))
  else return []

def limits : Reader (Option Expression × Option Expression) := do
  if ← skipKeyword "LIMIT" then
    let first ← behind 1 (nested.expression 1)
    if ← behind 2 (skipKeyword "OFFSET") then
      return (some (← behind 3 (nested.expression 1)).expression, some first.expression)
    if ← behind 2 (skipMark ",") then
      return (some first.expression, some (← behind 3 (nested.expression 1)).expression)
    return (none, some first.expression)
  return (none, none)

def rowOfValues : Reader (List Expression) := do
  let nodes ← inParentheses (expressions nested)
  return nodes.map (·.expression)

/-- Adds a row to the runs, of which the last one comes first. -/
def addRow (runs : List ValueRun) (row : List Expression) : Reader (List ValueRun) := do
  match runs with
  | run :: before =>
      if run.takes row then
        suspendAll (run.rowFault ⟨(← read).text, none, []⟩ row)
        return ⟨row :: run.rows⟩ :: before
      else return ⟨[row]⟩ :: runs
  | [] => return [⟨[row]⟩]

def furtherRows (room : Nat) (runs : List ValueRun) : Reader (List ValueRun) := do
  match room with
  | 0 => return runs
  | room + 1 =>
      if ← behind 1 (skipMark ",") then
        let row ← behind 2 (rowOfValues nested)
        furtherRows room (← addRow runs row)
      else return runs

def valueRuns : Reader (List ValueRun) := do
  keyword "VALUES"
  let first ← behind 1 (rowOfValues nested)
  let runs ← furtherRows nested (← get).tokens.length [⟨[first]⟩]
  return (runs.map fun run => ⟨run.rows.reverse⟩).reverse

def simpleQuery : Reader Query := do
  keyword "SELECT"
  let distinct ← skipKeyword "DISTINCT"
  if !distinct then
    let _ ← skipKeyword "ALL"
  let item := behind 4 (resultItem nested)
  let items ← separatedFrom item item (← get).tokens.length []
  let sources ← if ← skipKeyword "FROM" then behind 4 (sources nested) else pure []
  let condition ← behind 4 (condition nested)
  behind 5 (grouping nested)
  behind 7 (namedWindows nested)
  let order ← behind 7 (order nested)
  let (offset, limit) ← behind 8 (limits nested)
  return { distinct, items, sources, condition := condition.map (·.expression), order, limit, offset }

def isCompounding (token : Token) : Bool :=
  token.isKeyword "UNION" || token.isKeyword "EXCEPT" || token.isKeyword "INTERSECT"

def queryPart : Reader Unit := do
  if ← nextIs (·.isKeyword "VALUES") then
    let _ ← valueRuns nested
  else
    let _ ← simpleQuery nested

def compounds (room : Nat) : Reader Unit := do
  match room with
  | 0 => pure ()
  | room + 1 =>
      if ← nextIs isCompounding then
        let isUnion ← nextIs (·.isKeyword "UNION")
        advance
        if isUnion then
          let _ ← skipKeyword "ALL"
        goBeyond
        queryPart nested
        compounds room

def query : Reader Query := do
  let first ← simpleQuery nested
  compounds nested (← get).tokens.length
  return first

def columnEntry : Reader Unit := do
  let _ ← name
  if ← skipKeyword "COLLATE" then
    let _ ← accept Token.isLabel
    goBeyond
  if !(← skipKeyword "ASC") then
    let _ ← skipKeyword "DESC"

def columnEntries : Reader Unit := do
  if ← nextIs (·.isMark "(") then
    let _ ← inParentheses (separated columnEntry)

def commonTable : Reader Unit := do
  let _ ← name
  columnEntries
  keyword "AS"
  let negated ← skipKeyword "NOT"
  if negated then keyword "MATERIALIZED"
  else
    let _ ← skipKeyword "MATERIALIZED"
  mark "("
  nested.query
  mark ")"

def commonTables : Reader Unit := do
  if ← skipKeyword "WITH" then
    goBeyond
    let _ ← skipKeyword "RECURSIVE"
    let _ ← separated (commonTable nested)

def innerQuery : Reader Unit := do
  commonTables nested
  queryPart nested
  compounds nested (← get).tokens.length

/-- Expressions, queries and sources with `room` for that many of them in one another.
    What is inside is only made when it is read. -/
def nestedIn : Nat → Nested
  | 0 => { expression := fun _ => refuse, query := refuse, sources := refuse }
  | room + 1 =>
      let inner (_ : Unit) : Nested := nestedIn room
      { expression := fun level => expressionAt (inner ()) level
        query := fun context reading => innerQuery (inner ()) context reading
        sources := fun context reading => (discard (sources (inner ()))) context reading }

end Reader

end SealedColumns.Sql
