import SealedColumns.Sql.Affinity
import SealedColumns.Sql.Expression.Operand

/-!
Expressions read from tokens. Operators have ranks: an operand on the right takes the
operators of higher ranks behind it, and operators of one rank go from left to right.
-/

namespace SealedColumns.Sql

inductive Continuation where
  | binary (operator : Operator)
  | pointer
  | is
  | isNull (negated : Bool)
  | not
  | likeness
  | between
  | among
  | collation
  deriving DecidableEq

namespace Continuation

def ofMark? : String → Option (Nat × Continuation)
  | "=" | "==" => some (4, binary (.compare .equal))
  | "<>" | "!=" => some (4, binary (.compare .unequal))
  | "<" => some (5, binary (.compare .less))
  | "<=" => some (5, binary (.compare .atMost))
  | ">" => some (5, binary (.compare .greater))
  | ">=" => some (5, binary (.compare .atLeast))
  | "&" => some (7, binary (.calculate .bitAnd))
  | "|" => some (7, binary (.calculate .bitOr))
  | "<<" => some (7, binary (.calculate .shiftLeft))
  | ">>" => some (7, binary (.calculate .shiftRight))
  | "+" => some (8, binary (.calculate .add))
  | "-" => some (8, binary (.calculate .subtract))
  | "*" => some (9, binary (.calculate .multiply))
  | "/" => some (9, binary (.calculate .divide))
  | "%" => some (9, binary (.calculate .remainder))
  | "||" => some (10, binary (.calculate .concatenate))
  | "->" | "->>" => some (10, pointer)
  | _ => none

def ofWord? : String → Option (Nat × Continuation)
  | "OR" => some (1, binary .or)
  | "AND" => some (2, binary .and)
  | "NOT" => some (3, not)
  | "IS" => some (4, is)
  | "ISNULL" => some (4, isNull false)
  | "NOTNULL" => some (4, isNull true)
  | "BETWEEN" => some (4, between)
  | "IN" => some (4, among)
  | "COLLATE" => some (11, collation)
  | word => if matching.contains word then some (4, likeness) else none

def ofToken? (token : Token) : Option (Nat × Continuation) :=
  match token.kind with
  | .mark => ofMark? token.text
  | .word word => ofWord? word
  | _ => none

end Continuation

namespace Reader

variable (nested : Nested)

/-- A conjunction with a written zero is zero, whatever the other operand. -/
def joined (operator : Operator) (left right : Node) : Reader Node :=
  if operator = .and ∧ (left.isZero || right.isZero) then pure ⟨.zero, 1, true⟩
  else grow (.binary operator left.expression right.expression) [left.height, right.height]

/-- What follows IS: a value to be the same as, or one to be distinct from. -/
def sameness (left : Node) : Reader Node := do
  let negated ← behind 2 (skipKeyword "NOT")
  let parts := if negated then 3 else 2
  let distinct ← behind parts (skipKeyword "DISTINCT")
  if distinct then behind (parts + 1) (keyword "FROM")
  let right ← behind (if distinct then parts + 2 else parts) (nested.expression 5)
  let same := Expression.binary .is left.expression right.expression
  grow (if negated != distinct then .signed .not same else same) [left.height, right.height]

def matched (negated : Bool) (left : Node) : Reader Node := do
  let word ← behind (if negated then 2 else 1) (accept Token.isMatching)
  let right ← behind 2 (nested.expression 5)
  let escape ←
    if ← behind 3 (skipKeyword "ESCAPE") then pure [← behind 4 (nested.expression 5)]
    else pure []
  let arguments := right :: left :: escape
  let node ← grow (.call word.text word.offset (arguments.map (·.expression)))
    (arguments.map (·.height))
  negateIf negated node

def range (negated : Bool) (left : Node) : Reader Node := do
  behind (if negated then 2 else 1) (keyword "BETWEEN")
  let low ← behind 2 (nested.expression 0)
  behind 3 (keyword "AND")
  let high ← behind 4 (nested.expression 5)
  let node ← grow
    (.binary .and (.binary (.compare .atLeast) left.expression low.expression)
      (.binary (.compare .atMost) left.expression high.expression)) [left.height]
  negateIf negated node

/-- Whether a value equals one of several, whose affinities do not matter. -/
def equalsAny (left : Expression) : List Expression → Expression
  | [] => .cell (.ofBool false) 0
  | [item] => .binary (.compare .equal) left (.signed .plus item)
  | item :: rest =>
      .binary .or (.binary (.compare .equal) left (.signed .plus item)) (equalsAny left rest)

/-- The rows of a table or of a function that a value may be among. -/
def amongRows : Reader Unit := do
  let _ ← name
  if ← skipMark "." then
    let _ ← name
  if ← skipMark "(" then
    let _ ← expressionsBefore nested ")"
    mark ")"
  goBeyond

def among (negated : Bool) (left : Node) : Reader Node := do
  behind (if negated then 2 else 1) (keyword "IN")
  if left.expression.width ≠ 1 then goBeyond
  if ← behind 2 (skipMark "(") then
    if ← nextIs startsQuery then
      behind 3 (subquery nested)
      return left
    let items ← behind 3 (expressionsBefore nested ")")
    behind 4 (mark ")")
    if items.isEmpty then return ⟨.cell (.ofBool negated) 0, 1, !negated⟩
    let node ← grow (equalsAny left.expression (items.map (·.expression)))
      (left.height :: items.map (·.height))
    negateIf negated node
  else
    behind 2 (amongRows nested)
    return left

def negatedContinuation (left : Node) : Reader Node := do
  behind 1 (keyword "NOT")
  if ← behind 2 (skipKeyword "NULL") then
    grow (.signed .not (.binary .is left.expression .null)) [left.height]
  else if ← nextIs (·.isKeyword "BETWEEN") then range nested true left
  else if ← nextIs (·.isKeyword "IN") then among nested true left
  else matched nested true left

/-- Goes on behind the left operand, which is one part by now. -/
def continueWith (token : Token) (rank : Nat) (left : Node) : Continuation → Reader Node
  | .binary operator => do
      behind 1 advance
      let right ← behind 2 (nested.expression (rank + 1))
      joined operator left right
  | .pointer => do
      behind 1 advance
      let right ← behind 2 (nested.expression (rank + 1))
      grow (.call token.text token.offset [left.expression, right.expression])
        [left.height, right.height]
  | .is => do
      behind 1 advance
      sameness nested left
  | .isNull negated => do
      behind 1 advance
      let test := Expression.binary .is left.expression .null
      grow (if negated then .signed .not test else test) [left.height]
  | .not => negatedContinuation nested left
  | .likeness => matched nested false left
  | .between => range nested false left
  | .among => among nested false left
  | .collation => do
      behind 1 advance
      let collation ← behind 2 (accept Token.isLabel)
      return ⟨.collated left.expression collation.text, 1, false⟩

/-- The operators of a rank that the level takes, one after the other; `room` bounds
    their number. -/
def operators (level room : Nat) (left : Node) : Reader Node := do
  match room, (← next?).bind fun token => (Continuation.ofToken? token).map (token, ·) with
  | room + 1, some (token, rank, continuation) =>
      if rank < level ∨ (level = 0 ∧ continuation = .binary .and) then return left
      let node ← continueWith nested token rank left continuation
      operators level room node
  | _, _ => return left

def expressionAt (level : Nat) : Reader Node := do
  let left ← operand nested
  operators nested level (← get).tokens.length left

end Reader

end SealedColumns.Sql
