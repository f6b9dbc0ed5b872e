import SealedColumns.Sql.Query.Reader
import SealedColumns.Text.Slice

/-!
Commands read from SQL text. A table is declared as its columns are read, and what is
wrong with a declaration is told as soon as reading can go on behind it.
-/

namespace SealedColumns.Sql

/-- A table as far as it is declared. One that exists already is not checked again. -/
structure Declaration where
  layout : TableLayout
  types : List String
  hasPrimaryKey : Bool
  isChecked : Bool

namespace Declaration

def columnLimit : Nat := 2000

def start (name : String) (isChecked : Bool) : Declaration where
  layout := ⟨name, [], [], none⟩
  types := []
  hasPrimaryKey := false
  isChecked

def columnFault? (declaration : Declaration) (name : String) : Option Fault :=
  if !declaration.isChecked then none
  else if columnLimit ≤ declaration.layout.columns.length then
    some (.manyColumns declaration.layout.name)
  else if declaration.layout.columnNames.any (sameName name) then some (.repeatedColumn name)
  else none

def addColumn (declaration : Declaration) (name type : String) : Declaration :=
  { declaration with
    layout := { declaration.layout with
      columns := declaration.layout.columns
        ++ [⟨name, .ofColumnType type, false, .null, .binary⟩] }
    types := declaration.types ++ [type] }

def changeColumn (declaration : Declaration) (change : Column → Column) : Declaration :=
  let columns := declaration.layout.columns
  { declaration with
    layout := { declaration.layout with
      columns := columns.dropLast ++ (columns.getLast?.map change).toList } }

/-- The same columns need not be unique twice. -/
def addUnique (declaration : Declaration) (positions : List Nat) : Declaration :=
  if declaration.layout.unique.contains positions then declaration
  else
    { declaration with
      layout := { declaration.layout with unique := positions :: declaration.layout.unique } }

/-- The words of a type without those that say that the column is always generated. -/
def keptType (words : List String) : String :=
  let kept := match words.reverse with
    | always :: generated :: rest =>
        if sameName always "ALWAYS" && sameName generated "GENERATED" then rest.reverse else words
    | _ => words
  " ".intercalate kept

/-- A single column of the type INTEGER that does not descend becomes the number of the
    row. -/
def addPrimaryKey (declaration : Declaration) (positions : List Nat) (descending : Bool) :
    Declaration :=
  let declaration := { declaration with hasPrimaryKey := true }
  match positions with
  | [position] =>
      if !descending && (declaration.types[position]?).any (sameName "INTEGER") then
        { declaration with layout := { declaration.layout with numbered := some position } }
      else declaration.addUnique positions
  | _ => declaration.addUnique positions

def strictTypes : List String := ["ANY", "BLOB", "INT", "INTEGER", "REAL", "TEXT"]

def typeFault? (declaration : Declaration) : Option Fault :=
  let table := declaration.layout.name
  let found := (declaration.layout.columnNames.zip declaration.types).find? fun (_, type) =>
    !strictTypes.any (sameName type)
  found.map fun (column, type) =>
    if type.isEmpty then .missingType table column else .unknownType table column type

end Declaration

inductive TableOption where
  | strict
  | unnumbered
  | unknown
  deriving DecidableEq

namespace Declaration

def optionFault? (declaration : Declaration) (options : List TableOption) : Option Fault :=
  if !declaration.isChecked then none
  else
    let typeFault := if options.contains .strict then declaration.typeFault? else none
    let keyFault := if options.contains .unnumbered && !declaration.hasPrimaryKey then
        some (Fault.missingPrimaryKey declaration.layout.name)
      else none
    typeFault.or keyFault

end Declaration

namespace Reader

variable (nested : Nested)

/-- What to do about a row that breaks a rule; only giving up is carried out. -/
def conflictPolicy : Reader Unit := do
  if ← skipKeyword "ON" then
    keyword "CONFLICT"
    if !(← skipKeyword "ABORT") then
      let _ ← accept fun token => ["ROLLBACK", "FAIL", "IGNORE", "REPLACE"].any token.isKeyword
      goBeyond

def isTerm (token : Token) : Bool :=
  match token.kind with
  | .number | .string | .blob _ => true
  | .word word => word == "NULL" || isClock word
  | _ => false

def constantCell (expression : Expression) : Cell :=
  match Scope.resolve ⟨"", none, []⟩ expression with
  | .ok resolved => resolved.term.evaluate (fun _ => .null) ⟨0, []⟩
  | .error _ => .null

/-- The value that a column has where none is given. A name is a truth value or a text. -/
def defaultValue : Reader Cell := do
  if ← nextIs (·.isMark "(") then
    let node ← behind 1 (inParentheses (nested.expression 1))
    if !node.expression.isConstant then goBeyond
    return constantCell node.expression
  if ← nextIs isTerm then return constantCell (← operand nested).expression
  if ← nextIs fun token => token.isMark "-" || token.isMark "+" then
    let negative ← nextIs (·.isMark "-")
    advance
    if ← nextIs isTerm then
      let node ← operand nested
      return constantCell (.signed (if negative then .minus else .plus) node.expression)
    else refuse
  let name ← accept fun token => token.isPlainName || token.isKeyword "INDEXED"
  let truth := Reference.truth? ⟨[], name.text, quoteOf name, name.offset⟩
  return (truth.map Cell.ofBool).getD (.ofText name.text)

def deferring : Reader Unit := do
  keyword "DEFERRABLE"
  goBeyond
  if ← skipKeyword "INITIALLY" then
    if !(← skipKeyword "DEFERRED") then keyword "IMMEDIATE"

def referenceActions (room : Nat) : Reader Unit := do
  match room with
  | 0 => pure ()
  | room + 1 =>
      if ← skipKeyword "ON" then
        if !(← skipKeyword "INSERT") then
          if !(← skipKeyword "DELETE") then keyword "UPDATE"
        if ← skipKeyword "SET" then
          if !(← skipKeyword "NULL") then keyword "DEFAULT"
        else if ← skipKeyword "NO" then keyword "ACTION"
        else if !(← skipKeyword "CASCADE") then keyword "RESTRICT"
        referenceActions room
      else if ← skipKeyword "MATCH" then
        let _ ← name
        referenceActions room

def referenceTarget : Reader Unit := do
  keyword "REFERENCES"
  goBeyond
  let _ ← name
  columnEntries
  referenceActions (← get).tokens.length

def generation : Reader Unit := do
  if ← skipKeyword "GENERATED" then keyword "ALWAYS"
  keyword "AS"
  goBeyond
  let _ ← inParentheses (nested.expression 1)
  let _ ← skip Token.isPlainName

/-- The primary key is declared once. -/
def primaryKey (declaration : Declaration) (positions : List Nat) (descending : Bool) :
    Reader Declaration := do
  if declaration.hasPrimaryKey && declaration.isChecked then
    suspend (.severalPrimaryKeys declaration.layout.name) none
  return declaration.addPrimaryKey positions descending

/-- A rule of the column that was declared last, if that is what the word begins. -/
def columnRule (word : String) (declaration : Declaration) : Reader (Option Declaration) := do
  let position := declaration.layout.columns.length - 1
  if word == "CONSTRAINT" then
    advance
    let _ ← name
    return declaration
  else if word == "DEFAULT" then
    advance
    let value ← defaultValue nested
    return declaration.changeColumn ({ · with default := value })
  else if word == "NULL" then
    advance
    conflictPolicy
    return declaration
  else if word == "NOT" then
    advance
    if ← nextIs (·.isKeyword "DEFERRABLE") then
      deferring
      return declaration
    keyword "NULL"
    conflictPolicy
    return declaration.changeColumn ({ · with notNull := true })
  else if word == "PRIMARY" then
    advance
    keyword "KEY"
    let descending ← skipKeyword "DESC"
    if !descending then
      let _ ← skipKeyword "ASC"
    conflictPolicy
    if ← skipKeyword "AUTOINCREMENT" then goBeyond
    primaryKey declaration [position] descending
  else if word == "UNIQUE" then
    advance
    conflictPolicy
    return declaration.addUnique [position]
  else if word == "CHECK" then
    advance
    let _ ← inParentheses (nested.expression 1)
    goBeyond
    return declaration
  else if word == "REFERENCES" then
    referenceTarget
    return declaration
  else if word == "DEFERRABLE" then
    deferring
    return declaration
  else if word == "COLLATE" then
    advance
    let name := (← accept Token.isLabel).text
    match Collation.ofName? name with
    | some collation => return declaration.changeColumn ({ · with collation })
    | none =>
        if declaration.isChecked then suspend (.unknownCollation name) none
        return declaration
  else if word == "AS" || word == "GENERATED" then
    generation nested
    return declaration
  else return none

def columnRules (room : Nat) (declaration : Declaration) : Reader Declaration := do
  match room, (← next?).map (·.kind) with
  | room + 1, some (TokenKind.word word) =>
      match ← columnRule nested word declaration with
      | some declaration => columnRules room declaration
      | none => return declaration
  | _, _ => return declaration

def columnDeclaration (declaration : Declaration) : Reader Declaration := do
  let column ← name
  let type ← behind 1 typeName
  match declaration.columnFault? column with
  | some fault => suspend fault none
  | none => pure ()
  let declaration := declaration.addColumn column (Declaration.keptType type)
  behind 2 (columnRules nested (← get).tokens.length declaration)

def startsTableRule (token : Token) : Bool :=
  ["CONSTRAINT", "PRIMARY", "UNIQUE", "CHECK", "FOREIGN"].any token.isKeyword

def ruleColumns (declaration : Declaration) : Reader (List Nat) := do
  let terms ← separated (sortTerm nested)
  terms.filterMapM fun (node, _, _) => do
    match node.expression with
    | .reference name =>
        match declaration.layout.position? name.name with
        | some position => return some position
        | none =>
            if declaration.isChecked then suspend (.unknownColumn name.name) (some name.offset)
            return none
    | _ =>
        goBeyond
        return none

def tableRule (declaration : Declaration) : Reader Declaration := do
  if ← skipKeyword "CONSTRAINT" then
    let _ ← name
    return declaration
  else if ← skipKeyword "PRIMARY" then
    keyword "KEY"
    mark "("
    let positions ← ruleColumns nested declaration
    if ← skipKeyword "AUTOINCREMENT" then goBeyond
    mark ")"
    conflictPolicy
    primaryKey declaration positions false
  else if ← skipKeyword "UNIQUE" then
    mark "("
    let positions ← ruleColumns nested declaration
    mark ")"
    conflictPolicy
    return declaration.addUnique positions
  else if ← skipKeyword "CHECK" then
    let _ ← inParentheses (nested.expression 1)
    goBeyond
    conflictPolicy
    return declaration
  else
    keyword "FOREIGN"
    keyword "KEY"
    let _ ← inParentheses (separated columnEntry)
    referenceTarget
    if ← skipKeyword "NOT" then deferring
    else if ← nextIs (·.isKeyword "DEFERRABLE") then deferring
    return declaration

/-- Rules of the table, between which commas may be left out. -/
def tableRules (room : Nat) (declaration : Declaration) :
    Reader Declaration := do
  let declaration ← tableRule nested declaration
  match room with
  | 0 => return declaration
  | room + 1 =>
      if ← skipMark "," then tableRules room declaration
      else if ← nextIs startsTableRule then tableRules room declaration
      else return declaration

def columnDeclarations (room : Nat) (declaration : Declaration) :
    Reader Declaration := do
  let declaration ← columnDeclaration nested declaration
  match room with
  | 0 => return declaration
  | room + 1 =>
      if ← skipMark "," then
        if ← nextIs startsTableRule then tableRules nested room declaration
        else columnDeclarations room declaration
      else return declaration

def tableOption : Reader TableOption := do
  let isDenied ← skipKeyword "WITHOUT"
  let option ← accept Token.isName
  if isDenied && sameName option.source "rowid" then return .unnumbered
  if !isDenied && sameName option.source "strict" then return .strict
  suspend (.unknownTableOption option.source) none
  return .unknown

def furtherOptions (room : Nat) (seen : List TableOption) : Reader (List TableOption) := do
  match room with
  | 0 => return seen
  | room + 1 =>
      if ← skipMark "," then
        let option ← tableOption
        furtherOptions room (option :: seen)
      else return seen

def tableOptions : Reader (List TableOption) := do
  let first ← if ← nextIs Token.isName then pure [← tableOption] else pure []
  furtherOptions (← get).tokens.length first

def newTableFault? (written : Token) (database : Option Token) : Reader (Option (Fault × Option Nat)) := do
  if database.any fun token => not (["main", "temp"].any (sameName token.text)) then
    return database.map fun token => (.unknownDatabase token.source, some token.offset)
  if isReservedName written.text then return some (.reservedName written.text, none)
  if (← read).tables.any (sameName written.text) then
    return some (.tableExists written.source, some written.offset)
  return none

def tableBody (declaration : Declaration) : Reader Command := do
  if ← skipKeyword "AS" then
    goBeyond
    nested.query
    return .keepTable
  mark "("
  let declaration ← behind 2 (columnDeclarations nested (← get).tokens.length declaration)
  mark ")"
  let options ← tableOptions
  match declaration.optionFault? options with
  | some fault => suspend fault none
  | none => if options.contains .strict || options.contains .unnumbered then goBeyond
  if declaration.isChecked then return .createTable declaration.layout else return .keepTable

def isTemporary (token : Token) : Bool :=
  token.isKeyword "TEMP" || token.isKeyword "TEMPORARY"

def createTable : Reader Command := do
  keyword "TABLE"
  let optional ← skipKeyword "IF"
  if optional then
    keyword "NOT"
    keyword "EXISTS"
  let first ← accept Token.isName
  let second ← if ← skipMark "." then pure (some (← accept Token.isName)) else pure none
  let written := second.getD first
  match ← newTableFault? written (second.map fun _ => first) with
  | some (.tableExists name, place) =>
      if optional then tableBody nested (.start written.text false)
      else
        suspend (.tableExists name) place
        tableBody nested (.start written.text false)
  | some (fault, place) =>
      suspend fault place
      tableBody nested (.start written.text false)
  | none => tableBody nested (.start written.text true)

def create : Reader Command := do
  keyword "CREATE"
  if ← skip isTemporary then goBeyond
  if ← nextIs fun token => ["INDEX", "UNIQUE", "TRIGGER", "VIEW", "VIRTUAL"].any token.isKeyword then
    throw (.command .notCarriedOut none)
  createTable nested

def returning : Reader Unit := do
  if ← skipKeyword "RETURNING" then
    let _ ← separated (resultItem nested)
    goBeyond

def assignment : Reader (List (String × Expression)) := do
  if ← nextIs (·.isMark "(") then
    let columns ← inParentheses (separated name)
    behind 3 equals
    let node ← behind 4 (nested.expression 1)
    let values := match node.expression with
      | .row items => items
      | value => [value]
    if values.length ≠ columns.length then
      suspend (.assignedValues columns.length values.length) none
    return columns.zip values
  let column ← name
  behind 1 equals
  let node ← behind 2 (nested.expression 1)
  return [(column, node.expression)]
where
  equals : Reader Unit := do
    let _ ← accept fun token => token.isMark "=" || token.isMark "=="

def assignments : Reader (List (String × Expression)) := do
  return (← separated (assignment nested)).flatten

/-- What to do instead of inserting a row that breaks a rule. -/
def insteadOfInsertion (room : Nat) : Reader Unit := do
  match room with
  | 0 => pure ()
  | room + 1 =>
      if ← skipKeyword "ON" then
        goBeyond
        keyword "CONFLICT"
        let hasTarget ← skipMark "("
        if hasTarget then
          let _ ← separated (sortTerm nested)
          mark ")"
          let _ ← condition nested
        keyword "DO"
        if !(← skipKeyword "NOTHING") then
          keyword "UPDATE"
          keyword "SET"
          let _ ← assignments nested
          let _ ← condition nested
        if hasTarget then insteadOfInsertion room else returning nested
      else returning nested

def resolution : Reader Unit := do
  if ← skipKeyword "OR" then
    if !(← skipKeyword "ABORT") then
      let _ ← accept fun token => ["ROLLBACK", "FAIL", "IGNORE", "REPLACE"].any token.isKeyword
      goBeyond

def tableUse : Reader TableUse := do
  let table ← tableName
  if ← skipKeyword "AS" then return ⟨table, some (← name)⟩
  return ⟨table, none⟩

def insert : Reader Command := do
  if ← skipKeyword "REPLACE" then goBeyond
  else
    keyword "INSERT"
    resolution
  keyword "INTO"
  let use ← tableUse
  let columns ←
    if ← nextIs (·.isMark "(") then pure (some (← inParentheses (separated name))) else pure none
  if ← skipKeyword "DEFAULT" then
    keyword "VALUES"
    returning nested
    return .insert use.table (some (columns.getD [])) [⟨[[]]⟩]
  let runs ←
    if ← nextIs (·.isKeyword "VALUES") then behind 5 (valueRuns nested)
    else if ← nextIs startsQuery then
      commonTables nested
      queryPart nested
      goBeyond
      pure []
    else refuse
  compounds nested (← get).tokens.length
  insteadOfInsertion nested (← get).tokens.length
  return .insert use.table columns runs

def update : Reader Command := do
  keyword "UPDATE"
  resolution
  let use ← tableUse
  indexing
  keyword "SET"
  let changes ← behind 6 (assignments nested)
  if Declaration.columnLimit < changes.length then suspend .manyAssignments none
  if ← skipKeyword "FROM" then
    let _ ← sources nested
    goBeyond
  let condition ← behind 8 (condition nested)
  returning nested
  return .update use changes (condition.map (·.expression))

def delete : Reader Command := do
  keyword "DELETE"
  keyword "FROM"
  let use ← tableUse
  indexing
  let condition ← behind 5 (condition nested)
  returning nested
  return .delete use (condition.map (·.expression))

def otherCommands : List String :=
  ["ALTER", "ANALYZE", "ATTACH", "BEGIN", "COMMIT", "DETACH", "DROP", "END", "EXPLAIN",
   "PRAGMA", "REINDEX", "RELEASE", "ROLLBACK", "SAVEPOINT", "VACUUM"]

def startedCommand : Reader Command := do
  if ← nextIs (·.isKeyword "SELECT") then return .select (← query nested)
  else if ← nextIs (·.isKeyword "INSERT") then insert nested
  else if ← nextIs (·.isKeyword "REPLACE") then insert nested
  else if ← nextIs (·.isKeyword "UPDATE") then update nested
  else if ← nextIs (·.isKeyword "DELETE") then delete nested
  else refuse

def command : Reader Command := do
  if ← nextIs (·.isKeyword "CREATE") then create nested
  else if ← nextIs fun token => otherCommands.any token.isKeyword then
    throw (.command .notCarriedOut none)
  else if ← nextIs (·.isKeyword "VALUES") then
    let _ ← valueRuns nested
    compounds nested (← get).tokens.length
    goBeyond
    return .keepTable
  else
    commonTables nested
    startedCommand nested

/-- A command up to a semicolon or the end of the text. -/
def wholeCommand : Reader Command := do
  let command ← command nested
  if !(← get).tokens.isEmpty && !(← nextIs (·.isMark ";")) then refuse
  settle
  if (← get).beyond then throw (.command .notCarriedOut none)
  return command

end Reader

/-- The first command of a text with its parameters, none if the text holds only blanks,
    comments and semicolons, and the rest of the text behind its semicolon. -/
structure FirstCommand where
  command : Option (Command × Slots)
  rest : String

def FirstCommand.read (tables : List String) (sql : String) : Except EngineFault FirstCommand := do
  let tokens := Token.withWindowWords none (Token.ofCommand sql)
  if tokens.isEmpty then return ⟨none, ""⟩
  let nested := Reader.nestedIn (tokens.length + 1)
  let (command, reading) ← Reader.wholeCommand nested ⟨sql, tables, 1⟩ ⟨tokens, none, .empty, false⟩
  match reading.tokens with
  | [] => return ⟨some (command, reading.slots), ""⟩
  | token :: _ =>
      let rest := String.ofList (Text.dropBytes token.stop sql.toList)
      return ⟨some (command, reading.slots), rest⟩

end SealedColumns.Sql
