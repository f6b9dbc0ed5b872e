import SealedColumns.Sql.Expression.Window

/-!
The operands of expressions: values, names, calls, casts, choices, and whatever stands
in parentheses or behind a sign. Words that begin an operand of their own are never
names there.
-/

namespace SealedColumns.Sql.Reader

def isZeroNumeral (text : List Char) : Bool :=
  let digits := if Numeral.isHexadecimal text then text.drop 2 else text
  digits.all (· == '0')

def numeral (token : Token) : Reader Node := do
  advance
  let text := token.text.toList
  match Numeral.faultyJoint? text with
  | some shown => suspend (.badToken shown) none
  | none => pure ()
  let digits := String.ofList (Numeral.withoutJoints text)
  return ⟨.numeral digits token.offset, 1, isZeroNumeral text⟩

/-- A number sign with digits behind it means nothing in a command. -/
def isHiddenSlot (written : String) : Bool :=
  match written.toList with
  | '#' :: digit :: _ => digit.isDigit
  | _ => false

def parameter (token : Token) : Reader Node := do
  advance
  if isHiddenSlot token.source then
    suspend (.nearToken token.source) (some token.offset)
    return leaf .null
  match (← get).slots.add token.source with
  | .error fault =>
      suspend fault (some token.offset)
      return leaf .null
  | .ok (slots, slot) =>
      modify fun reading => { reading with slots }
      return leaf (.parameter slot token.offset)

def signedNumber : Reader String := do
  let sign ← nextIs fun token => token.isMark "+" || token.isMark "-"
  if sign then advance
  let token ← behind (if sign then 1 else 0)
    (accept fun token => token.kind == .number && !token.text.toList.contains '_')
  return token.text

/-- The words of a type, of which there may be none. -/
def typeWordsFrom (room : Nat) (seen : List String) : Reader (List String) := do
  match room with
  | 0 => return seen.reverse
  | room + 1 =>
      if ← nextIs Token.isLabel then
        let token ← behind (min seen.length 1) (accept Token.isLabel)
        typeWordsFrom room (token.source :: seen)
      else return seen.reverse

def typeName : Reader (List String) := do
  let words ← typeWordsFrom (← get).tokens.length []
  if words.isEmpty then return []
  if ← behind 1 (skipMark "(") then
    let _ ← behind 2 signedNumber
    if ← behind 3 (skipMark ",") then
      let _ ← behind 4 signedNumber
      behind 5 (mark ")")
    else behind 3 (mark ")")
  return words

variable (nested : Nested)

def call (name : Token) : Reader Node := do
  behind 1 (mark "(")
  if ← behind 2 (skipMark "*") then
    behind 3 (mark ")")
    behind 4 (callWindow nested)
    return leaf (.call name.text name.offset [])
  let distinct ← behind 2 (skipKeyword "DISTINCT")
  if !distinct then
    let _ ← behind 2 (skipKeyword "ALL")
  let arguments ←
    if ← nextIs (·.isKeyword "ORDER") then pure []
    else behind 3 (expressionsBefore nested ")")
  if ← behind 4 (skipKeyword "ORDER") then
    behind 5 (keyword "BY")
    let _ ← behind 6 (separated (sortTerm nested))
    goBeyond
  behind 4 (mark ")")
  behind 5 (callWindow nested)
  grow (.call name.text name.offset (arguments.map (·.expression))) (arguments.map (·.height))

def quoteOf (token : Token) : Option Char :=
  match token.kind with
  | .quotedName quote => some quote
  | _ => none

def reference : Reader Node := do
  let first ← accept Token.isName
  if ← behind 1 (skipMark ".") then
    let second ← behind 2 name
    if ← behind 3 (skipMark ".") then
      let third ← behind 4 name
      return ⟨.reference ⟨[first.text, second], third, none, first.offset⟩, 3, false⟩
    return ⟨.reference ⟨[first.text], second, none, first.offset⟩, 2, false⟩
  if ← nextIs (·.isMark "(") then call nested first
  else return leaf (.reference ⟨[], first.text, quoteOf first, first.offset⟩)

def cast : Reader Node := do
  keyword "CAST"
  behind 1 (mark "(")
  let node ← behind 2 (nested.expression 1)
  behind 3 (keyword "AS")
  let type ← behind 4 typeName
  behind 5 (mark ")")
  return ⟨.cast node.expression (" ".intercalate type), node.height + 1, false⟩

/-- The arms of a choice, each a condition with its result. The arms that are `seen` are
    one part before a further one. -/
def armsFrom (room : Nat) (seen : List (Node × Node)) : Reader (List (Node × Node)) := do
  let parts := min seen.length 1
  behind parts (keyword "WHEN")
  let condition ← behind (parts + 1) (nested.expression 1)
  behind (parts + 2) (keyword "THEN")
  let result ← behind (parts + 3) (nested.expression 1)
  let seen := (condition, result) :: seen
  match room with
  | 0 => return seen.reverse
  | room + 1 =>
      if ← nextIs (·.isKeyword "WHEN") then armsFrom room seen else return seen.reverse

/-- The first arm whose condition is true, or equals the subject, gives the result. -/
def choose (subject : Option Node) (arms : List (Node × Node)) (otherwise : Expression) :
    Expression :=
  arms.foldr (fun (condition, result) rest =>
    let condition := match subject with
      | some subject => .binary (.compare .equal) subject.expression condition.expression
      | none => condition.expression
    .choice condition result.expression rest) otherwise

def choice : Reader Node := do
  keyword "CASE"
  let subject ←
    if ← nextIs (·.isKeyword "WHEN") then pure none
    else pure (some (← behind 1 (nested.expression 1)))
  let arms ← behind 2 (armsFrom nested (← get).tokens.length [])
  let otherwise ←
    if ← behind 3 (skipKeyword "ELSE") then behind 4 (nested.expression 1)
    else pure (leaf .null)
  behind 4 (keyword "END")
  grow (choose subject arms otherwise.expression)
    (otherwise.height :: subject.toList.map (·.height)
      ++ arms.flatMap fun (condition, result) => [condition.height, result.height])

def subquery : Reader Unit := do
  nested.query
  behind 1 (mark ")")
  goBeyond

def parenthesized : Reader Node := do
  mark "("
  if ← nextIs startsQuery then
    behind 1 (subquery nested)
    return leaf .null
  let first ← behind 1 (nested.expression 1)
  if ← behind 2 (skipMark ",") then
    let item := behind 3 (nested.expression 1)
    let rest ← separatedFrom item item (← get).tokens.length []
    behind 4 (mark ")")
    return leaf (.row (first.expression :: rest.map (·.expression)))
  behind 2 (mark ")")
  return first

def existence : Reader Node := do
  keyword "EXISTS"
  behind 1 (mark "(")
  behind 2 (subquery nested)
  return leaf .null

def raising : Reader Node := do
  keyword "RAISE"
  mark "("
  goBeyond
  if ← skipKeyword "IGNORE" then
    mark ")"
    return leaf .null
  let _ ← accept fun token =>
    token.isKeyword "ROLLBACK" || token.isKeyword "ABORT" || token.isKeyword "FAIL"
  mark ","
  let message ← nested.expression 1
  mark ")"
  return message

/-- A sign before an operand takes the place of a plus right behind it. -/
def signed (sign : Sign) (level : Nat) : Reader Node := do
  advance
  let node ← behind 1 (nested.expression level)
  match sign, node.expression with
  | .minus, .signed .plus operand | .plus, .signed .plus operand =>
      return { node with expression := .signed sign operand }
  | _, operand => grow (.signed sign operand) [node.height]

def isClock (word : String) : Bool :=
  word == "CURRENT_DATE" || word == "CURRENT_TIME" || word == "CURRENT_TIMESTAMP"

def wordOperand (word : String) (token : Token) : Reader Node := do
  if word == "NULL" then
    advance
    return leaf (.cell .null token.offset)
  else if word == "NOT" then signed nested .not 3
  else if word == "CAST" then cast nested
  else if word == "CASE" then choice nested
  else if word == "EXISTS" then existence nested
  else if word == "RAISE" then raising nested
  else if isClock word then
    advance
    goBeyond
    return leaf .null
  else if token.isReference then reference nested
  else refuse

def operand : Reader Node := do
  match ← next? with
  | none => refuse
  | some token =>
      match token.kind with
      | .number => numeral token
      | .parameter => parameter token
      | .blob data =>
          advance
          return leaf (.cell (.blob data) token.offset)
      | .string =>
          if ← secondIs (·.isMark ".") then reference nested
          else
            advance
            return leaf (.cell (.ofText token.text) token.offset)
      | .quotedName _ => reference nested
      | .word word => wordOperand nested word token
      | .mark =>
          if token.isMark "(" then parenthesized nested
          else if token.isMark "-" then signed nested .minus 12
          else if token.isMark "+" then signed nested .plus 12
          else if token.isMark "~" then signed nested .complement 12
          else refuse
      | .windowWord _ | .malformed => refuse

end SealedColumns.Sql.Reader
