import SealedColumns.NameMap

/-!
Finding the named placeholders of a statement. The text is read one character at
a time, looking at most one character ahead; the mode says what the characters
read so far leave open. A placeholder is a colon that does not follow a colon,
with a name that starts with a letter or an underscore, outside quotes and
comments. The letters of a name never change the mode, so reading goes on behind
the colon. Positions and lengths are counted in bytes.
-/

namespace SealedColumns.Placeholder

def isNameStart (c : Char) : Bool := c.isAlpha || c == '_'

def isNameChar (c : Char) : Bool := c.isAlphanum || c == '_'

def isQuote (c : Char) : Bool := c == '\x27' || c == '\x22' || c == '\x60'

/-- What the text before the next character leaves open. `plain` knows whether it
    ends in a colon. `escaped`, `blockOpen` and `blockClose` stand between the two
    characters of a doubled quote and of the marks of a block comment. -/
inductive Mode where
  | plain (afterColon : Bool)
  | quoted (quote : Char)
  | escaped (quote : Char)
  | line
  | blockOpen
  | block
  | blockClose
  deriving DecidableEq

def Mode.start : Mode := .plain false

def Mode.next (mode : Mode) (c : Char) (ahead : Option Char) : Mode :=
  match mode with
  | .plain _ =>
      if isQuote c then .quoted c
      else if c = '#' ∨ (c = '-' ∧ ahead = some '-') then .line
      else if c = '/' ∧ ahead = some '*' then .blockOpen
      else .plain (c == ':')
  | .quoted quote =>
      if c ≠ quote then .quoted quote
      else if ahead = some quote then .escaped quote
      else .plain false
  | .escaped quote => .quoted quote
  | .line => if c = '\n' then .plain false else .line
  | .blockOpen => .block
  | .block => if c = '*' ∧ ahead = some '/' then .blockClose else .block
  | .blockClose => .plain false

/-- Whether a placeholder starts at the character. -/
def Mode.opens (mode : Mode) (c : Char) (ahead : Option Char) : Bool :=
  match mode with
  | .plain false => c == ':' && ahead.any isNameStart
  | _ => false

structure Occurrence where
  position : Nat
  length : Nat
  name : String
  deriving DecidableEq

def Occurrence.stop (found : Occurrence) : Nat := found.position + found.length

def occurrencesFrom (mode : Mode) (position : Nat) : List Char → List Occurrence
  | [] => []
  | c :: rest =>
      let later :=
        occurrencesFrom (mode.next c rest.head?) (position + c.utf8Size) rest
      if mode.opens c rest.head? then
        let name := String.ofList (rest.takeWhile isNameChar)
        ⟨position, 1 + name.utf8ByteSize, name⟩ :: later
      else later

abbrev Counts := NameMap Nat

def countOf (counts : Counts) (name : String) : Nat := (counts.get? name).getD 0

def countNames (names : List String) : Counts :=
  names.foldl (fun counts name => counts.insert name (countOf counts name + 1)) .empty

structure Scan where
  occurrences : List Occurrence
  counts : Counts

def Scan.hasRepeats (found : Scan) : Bool :=
  found.counts.entries.any (fun entry => 1 < entry.2)

/-- An unfinished quote or comment hides the rest of the text. -/
def scan (sql : String) : Scan :=
  let occurrences := occurrencesFrom .start 0 sql.toList
  ⟨occurrences, countNames (occurrences.map (·.name))⟩

theorem countOf_countNames_foldl (names : List String) (counts : Counts) (name : String) :
    countOf (names.foldl (fun counts name =>
      counts.insert name (countOf counts name + 1)) counts) name =
      countOf counts name + names.count name := by
  induction names generalizing counts with
  | nil => simp
  | cons first rest ih =>
      rw [List.foldl_cons, ih, List.count_cons]
      by_cases same : name = first
      · simp [countOf, same]
        omega
      · simp [countOf, same, Ne.symm same]

theorem countOf_countNames (names : List String) (name : String) :
    countOf (countNames names) name = names.count name := by
  rw [countNames, countOf_countNames_foldl]
  simp [countOf]

end SealedColumns.Placeholder
