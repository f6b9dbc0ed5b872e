import SealedColumns.Sql.Expression
import SealedColumns.Sql.Reader

/-!
What is read of an expression, with the height it has, and the readers of what may
stand inside of other things. Heights are bounded.
-/

namespace SealedColumns.Sql

/-- An expression with its height, and whether it is written as zero. -/
structure Node where
  expression : Expression
  height : Nat
  isZero : Bool

/-- The readers of what may stand inside of other things. An expression is read at a
    level, which is the least rank it takes; at level 0 it takes every operator but AND. -/
structure Nested where
  expression : Nat → Reader Node
  query : Reader Unit
  sources : Reader Unit

namespace Reader

def heightLimit : Nat := 1000

def leaf (expression : Expression) : Node := ⟨expression, 1, false⟩

def grow (expression : Expression) (heights : List Nat) : Reader Node := do
  let height := heights.foldl max 0 + 1
  if heightLimit < height then suspend .deepExpression none
  return ⟨expression, height, false⟩

def negateIf (negated : Bool) (node : Node) : Reader Node :=
  if negated then grow (.signed .not node.expression) [node.height] else pure node

def startsQuery (token : Token) : Bool :=
  token.isKeyword "SELECT" || token.isKeyword "VALUES" || token.isKeyword "WITH"

variable (nested : Nested)

def expressions : Reader (List Node) := separated (nested.expression 1)

def expressionsBefore (closing : String) : Reader (List Node) := do
  if ← nextIs (·.isMark closing) then return []
  expressions nested

def sortTerm : Reader (Node × Bool × Option NullOrder) := do
  let node ← nested.expression 1
  let descending ← behind 1 (skipKeyword "DESC")
  if !descending then
    let _ ← behind 1 (skipKeyword "ASC")
  if ← behind 2 (skipKeyword "NULLS") then
    if ← behind 3 (skipKeyword "FIRST") then return (node, descending, some .first)
    behind 3 (keyword "LAST")
    return (node, descending, some .last)
  return (node, descending, none)

end Reader

end SealedColumns.Sql
