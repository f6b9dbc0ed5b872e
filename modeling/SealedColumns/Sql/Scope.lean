import SealedColumns.Sql.Table

/-!
What names stand for. A name is a column, the number of a row, the label of a result, a
text in double quotes, or a truth value, in this order. Faults of names come as soon as
they are met; those of values only after all names of a command are resolved.
-/

namespace SealedColumns.Sql

def resultLimit : Nat := 2000

structure Source where
  name : String
  layout : TableLayout

/-- A term with the affinity and the collation it has in comparisons. A collation that is
    asked for goes before one that a column has. -/
structure Resolved where
  term : Term
  affinity : Option Affinity
  collation : Option Collation
  isCollated : Bool

namespace Resolved

def value (cell : Cell) : Resolved := ⟨.constant cell, none, none, false⟩

/-- A term over parts, of which the first that asks for a collation counts. -/
def combining (term : Term) (parts : List Resolved) : Resolved :=
  let asked := (parts.find? (·.isCollated)).bind (·.collation)
  ⟨term, none, asked, asked.isSome⟩

def jointCollation (left right : Resolved) : Collation :=
  let found := if right.isCollated && !left.isCollated then right.collation
    else left.collation.or right.collation
  found.getD .binary

end Resolved

structure Scope where
  text : String
  source : Option Source
  labels : List (String × Resolved)

namespace Source

def column (source : Source) (position : Nat) : Resolved where
  term := .column position
  affinity := (source.layout.columns[position]?).map (·.affinity)
  collation := (source.layout.columns[position]?).map (·.collation)
  isCollated := false

def rowNumber (source : Source) : Resolved :=
  match source.layout.numbered with
  | some position => source.column position
  | none => ⟨.rowNumber, some .integer, none, false⟩

def find? (source : Source) (name : String) : Option Resolved :=
  match source.layout.position? name with
  | some position => some (source.column position)
  | none => if isRowNumberName name then some source.rowNumber else none

def goesBy (source : Source) : List String → Bool
  | [] => true
  | [table] => sameName table source.name
  | [database, table] => sameName database "main" && sameName table source.name
  | _ => false

end Source

namespace Scope

def faultAt (scope : Scope) (fault : Fault) (offset : Option Nat) : EngineFault :=
  .command fault (offset.map fun offset => ⟨scope.text, offset⟩)

def declared? (scope : Scope) (name : Reference) : Option Resolved :=
  let found := (scope.source.filter (·.goesBy name.owners)).bind (·.find? name.name)
  let label := if name.owners.isEmpty then
      (scope.labels.find? fun entry => sameName entry.1 name.name).map (·.2)
    else none
  found.or label

/-- What a name stands for without being declared. -/
def implied? (name : Reference) : Option Resolved :=
  if name.owners.isEmpty && name.quote == some '\x22' then
    some (.value (.ofText name.name))
  else name.truth?.map fun truth => .value (.ofBool truth)

def resolveName (scope : Scope) (name : Reference) : Except EngineFault Resolved :=
  match (scope.declared? name).or (implied? name) with
  | some resolved => .ok resolved
  | none => .error (scope.faultAt (.unknownColumn name.written) (some name.offset))

/-- The functions that the engine knows of, though it carries none of them out. -/
def knownFunctions : List String :=
  ["->", "->>", "abs", "avg", "changes", "char", "coalesce", "concat", "concat_ws", "count",
   "date", "datetime", "format", "glob", "group_concat", "hex", "if", "ifnull", "iif", "instr",
   "json", "json_array", "json_extract", "json_object", "julianday", "last_insert_rowid",
   "length", "like", "likelihood", "likely", "lower", "ltrim", "match", "max", "min",
   "nullif", "octet_length", "printf", "quote", "random", "randomblob", "replace", "round",
   "rtrim", "sign", "soundex", "sqlite_version", "strftime", "string_agg", "substr",
   "substring", "sum", "time", "timediff", "total", "total_changes", "trim", "typeof",
   "unhex", "unicode", "unistr", "unixepoch", "unlikely", "upper", "zeroblob"]

def isKnown (function : String) : Bool := knownFunctions.any (sameName function)

/-- The fault that is told where a function is unknown: that of an argument hides it, as
    far as the arguments are names and calls. -/
def hiddenBy (scope : Scope) (told : EngineFault) : List Expression → EngineFault
  | [] => told
  | .reference name :: rest =>
      match scope.resolveName name with
      | .error fault => fault
      | .ok _ => hiddenBy scope told rest
  | .call function offset arguments :: _ =>
      let told := if isKnown function then told
        else scope.faultAt (.unknownFunction function) (some offset)
      hiddenBy scope told arguments
  | _ :: _ => told

def numeralCell (negative : Bool) (digits : String) : Cell :=
  let text := digits.toList
  if Numeral.isHexadecimal text then .integer (Numeral.hexInteger negative text)
  else
    match (if text.all Char.isDigit then Numeral.integer? negative text else none) with
    | some n => .integer n
    | none => .real (.signed negative (Numeral.ofText text).nearest)

def compared (relation : Relation) (left right : Resolved) : Term :=
  .compare relation (.joint left.affinity right.affinity) (left.jointCollation right)
    left.term right.term

def combine (operator : Operator) (left right : Resolved) : Term :=
  match operator with
  | .or => .or left.term right.term
  | .and => .and left.term right.term
  | .is =>
      .is (.joint left.affinity right.affinity) (left.jointCollation right) left.term right.term
  | .compare relation => compared relation left right
  | .calculate calculation => .calculate calculation left.term right.term

/-- The relation of the first items of rows that are related but not equal there. -/
def strict : Relation → Relation
  | .atMost => .less
  | .atLeast => .greater
  | relation => relation

def comparedRows (relation : Relation) : List (Resolved × Resolved) → Term
  | [] => .constant .null
  | [(left, right)] => compared relation left right
  | (left, right) :: rest =>
      match relation with
      | .equal => .and (compared .equal left right) (comparedRows .equal rest)
      | .unequal => .or (compared .unequal left right) (comparedRows .unequal rest)
      | relation =>
          .or (compared (strict relation) left right)
            (.and (compared .equal left right) (comparedRows relation rest))

def sameRows : List (Resolved × Resolved) → Term
  | [] => .constant (.ofBool true)
  | (left, right) :: rest => .and (combine .is left right) (sameRows rest)

def combineRows (operator : Operator) (items : List (Resolved × Resolved)) : Term :=
  match operator with
  | .is => sameRows items
  | .compare relation => comparedRows relation items
  | _ => .constant .null

/-- Whether an operator compares, which it does with rows of one size only. -/
def compares : Operator → Bool
  | .is | .compare _ => true
  | _ => false

/-- What an expression means. A row means nothing by itself; that is told later. Of a
    test for a name, the name is resolved first. -/
def resolve (scope : Scope) : Expression → Except EngineFault Resolved
  | .cell value _ => .ok (.value value)
  | .numeral digits _ => .ok (.value (numeralCell false digits))
  | .parameter slot _ => .ok ⟨.parameter slot, none, none, false⟩
  | .reference name => scope.resolveName name
  | .signed .minus (.numeral digits _) => .ok (.value (numeralCell true digits))
  | .signed sign operand => do
      let operand ← resolve scope operand
      let term := Term.signed sign operand.term
      .ok (if sign = .plus then { operand with term, affinity := none } else .combining term [operand])
  | .binary .is left (.reference name) => do
      let right ← scope.resolveName name
      let left ← resolve scope left
      match scope.declared? name, name.truth? with
      | none, some truth => .ok (.combining (.isTruth truth left.term) [left])
      | _, _ => .ok (.combining (combine .is left right) [left, right])
  | .binary operator (.row left) (.row right) => do
      if compares operator && left.length != right.length then
        .error (scope.faultAt .rowMisused none)
      let left ← resolveEach scope left
      let right ← resolveEach scope right
      .ok (.combining (combineRows operator (left.zip right)) (left ++ right))
  | .binary operator left right => do
      if compares operator && left.width != right.width then
        .error (scope.faultAt .rowMisused left.place?)
      let left ← resolve scope left
      let right ← resolve scope right
      .ok (.combining (combine operator left right) [left, right])
  | .cast operand type => do
      let operand ← resolve scope operand
      .ok { operand with
        term := .cast (.ofType type) operand.term
        affinity := some (.ofType type) }
  | .collated operand name => do
      let operand ← resolve scope operand
      .ok { operand with collation := Collation.ofName? name, isCollated := true }
  | .choice condition yes no => do
      let condition ← resolve scope condition
      let yes ← resolve scope yes
      let no ← resolve scope no
      .ok (.combining (.choice condition.term yes.term no.term) [condition, yes, no])
  | .call function offset arguments =>
      if isKnown function then do
        let _ ← resolveEach scope arguments
        .error (.command .notCarriedOut none)
      else
        .error (scope.hiddenBy (scope.faultAt (.unknownFunction function) (some offset)) arguments)
  | .row items => do
      let _ ← resolveEach scope items
      .ok (.value .null)
where
  resolveEach (scope : Scope) : List Expression → Except EngineFault (List Resolved)
    | [] => .ok []
    | item :: rest => do
        let item ← resolve scope item
        let rest ← resolveEach scope rest
        .ok (item :: rest)

/-- The faults of values in an expression: hexadecimal numerals that are too large,
    collations that are unknown, and rows that are no values. -/
def valueFaults (scope : Scope) : Expression → List EngineFault
  | .numeral digits offset => numeralFault false digits offset
  | .signed .minus (.numeral digits offset) => numeralFault true digits offset
  | .signed _ operand | .cast operand _ => valueFaults scope operand
  | .collated operand name =>
      valueFaults scope operand ++
        if (Collation.ofName? name).isSome then [] else [.command (.unknownCollation name) none]
  | .binary operator (.row left) (.row right) =>
      if compares operator then faultsOfEach scope left ++ faultsOfEach scope right
      else [.command .rowMisused none]
  | .binary _ left right => valueFaults scope left ++ valueFaults scope right
  | .choice condition yes no =>
      valueFaults scope condition ++ valueFaults scope yes ++ valueFaults scope no
  | .row _ => [.command .rowMisused none]
  | _ => []
where
  faultsOfEach (scope : Scope) : List Expression → List EngineFault
    | [] => []
    | item :: rest => valueFaults scope item ++ faultsOfEach scope rest
  numeralFault (negative : Bool) (digits : String) (offset : Nat) : List EngineFault :=
    if Numeral.isTooLarge negative digits.toList then
      let written := if negative then "-" ++ digits else digits
      [scope.faultAt (.largeHexadecimal written) (some offset)]
    else []

/-- Refuses values that are no values; of several the last one is told. -/
def checkValues (scope : Scope) (values : List Expression) : Except EngineFault Unit :=
  match (values.flatMap (scope.valueFaults ·)).getLast? with
  | some fault => .error fault
  | none => .ok ()

end Scope

end SealedColumns.Sql
