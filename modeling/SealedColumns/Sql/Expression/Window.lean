import SealedColumns.Sql.Expression.Node

/-!
Windows of rows, which calls of functions may look through. They are read for the sake
of the faults in them, since no function is carried out.
-/

namespace SealedColumns.Sql.Reader

variable (nested : Nested)

/-- The words that begin the parts of a window and are no name there. -/
def windowParts : List String := ["PARTITION", "ORDER", "RANGE", "ROWS", "GROUPS"]

def startsFrame (token : Token) : Bool :=
  token.isKeyword "RANGE" || token.isKeyword "ROWS" || token.isKeyword "GROUPS"

/-- Where the rows of a window begin or end. The outermost one lies on that side. -/
def frameBound (outermost : String) : Reader Unit := do
  if ← skipKeyword "UNBOUNDED" then keyword outermost
  else if ← skipKeyword "CURRENT" then keyword "ROW"
  else
    let _ ← nested.expression 1
    if !(← skipKeyword "PRECEDING") then keyword "FOLLOWING"

def frameExclusion : Reader Unit := do
  if ← skipKeyword "EXCLUDE" then
    if ← skipKeyword "NO" then keyword "OTHERS"
    else if ← skipKeyword "CURRENT" then keyword "ROW"
    else if !(← skipKeyword "GROUP") then keyword "TIES"

def frame : Reader Unit := do
  if ← skip startsFrame then
    if ← skipKeyword "BETWEEN" then
      frameBound nested "PRECEDING"
      keyword "AND"
      frameBound nested "FOLLOWING"
    else frameBound nested "PRECEDING"
    frameExclusion

/-- A window, which may start from another one of that name. -/
def window : Reader Unit := do
  if ← nextIs fun token => token.isName && !windowParts.any token.isKeyword then
    let _ ← name
  if ← skipKeyword "PARTITION" then
    keyword "BY"
    let _ ← expressions nested
  if ← skipKeyword "ORDER" then
    keyword "BY"
    let _ ← separated (sortTerm nested)
  frame nested

def callWindow : Reader Unit := do
  if ← skip (·.isWindowWord "FILTER") then
    inParentheses do
      keyword "WHERE"
      let _ ← nested.expression 1
  if ← skip (·.isWindowWord "OVER") then
    if ← nextIs (·.isMark "(") then inParentheses (window nested)
    else
      let _ ← name

def namedWindow : Reader Unit := do
  let _ ← name
  keyword "AS"
  inParentheses (window nested)

/-- The windows that a query names, none of which matters. -/
def namedWindows : Reader Unit := do
  if ← skip (·.isWindowWord "WINDOW") then
    let _ ← separated (namedWindow nested)

end SealedColumns.Sql.Reader
