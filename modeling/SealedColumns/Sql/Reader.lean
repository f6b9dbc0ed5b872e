import SealedColumns.Error
import SealedColumns.Sql.Name
import SealedColumns.Sql.Numeral

/-!
Reading a command from tokens. Reading stops at the first token that cannot go on. A
fault of what has been read waits until the next token turns out to go on, and only
then is told; what cannot go on is told in its place.
-/

namespace SealedColumns.Sql

/-- The parameters met so far: the latest named one first, and the last number given. -/
structure Slots where
  names : List (String × Nat)
  count : Nat
  deriving DecidableEq

/-- `beyond` tells that the command asks for something the engine does not carry out. -/
structure Reading where
  tokens : List Token
  pending : Option EngineFault
  slots : Slots
  beyond : Bool

/-- The text that is read, and the names that tables have. `depth` is the number of parts
    of unfinished phrases before the place that is read. -/
structure ReaderContext where
  text : String
  tables : List String
  depth : Nat

abbrev Reader (α : Type) := ReaderT ReaderContext (StateT Reading (Except EngineFault)) α

namespace Slots

def empty : Slots := ⟨[], 0⟩

def limit : Nat := 32766

def number? (slots : Slots) (name : String) : Option Nat :=
  (slots.names.find? fun entry => entry.1 == name).map (·.2)

def addNext (slots : Slots) (name : Option String) : Slots × Nat :=
  let number := slots.count + 1
  (⟨(name.map (·, number)).toList ++ slots.names, number⟩, number)

/-- Takes a number as it is given. Only the first name of a number counts. -/
def addNumbered (slots : Slots) (name : String) (number : Nat) : Slots × Nat :=
  if slots.count < number ∨ !slots.names.any (·.2 == number) then
    (⟨(name, number) :: slots.names, max slots.count number⟩, number)
  else (slots, number)

/-- The number of a parameter as it is written. A question mark alone is always new. -/
def add (slots : Slots) (written : String) : Except Fault (Slots × Nat) :=
  match written.toList with
  | ['?'] => bounded (slots.addNext none)
  | '?' :: digits =>
      let number := Numeral.value digits
      if 1 ≤ number ∧ number ≤ limit then bounded (slots.addNumbered written number)
      else .error .variableRange
  | _ =>
      match slots.number? written with
      | some number => bounded (slots, number)
      | none => bounded (slots.addNext (some written))
where
  bounded (added : Slots × Nat) : Except Fault (Slots × Nat) :=
    if limit < added.2 then .error .manyVariables else .ok added

end Slots

namespace Reader

variable {α : Type}

def next? : Reader (Option Token) := return (← get).tokens.head?

def nextIs (test : Token → Bool) : Reader Bool := return (← get).tokens.head?.any test

def secondIs (test : Token → Bool) : Reader Bool :=
  return ((← get).tokens.drop 1).head?.any test

def refuse : Reader α := do
  let context ← read
  match (← get).tokens with
  | [] => throw (.command .incomplete none)
  | token :: _ =>
      let place := some ⟨context.text, token.offset⟩
      if token.kind = .malformed then throw (.command (.badToken token.source) place)
      else throw (.command (.nearToken token.source) place)

/-- Tells the fault that waits, if there is one. -/
def settle : Reader Unit := do
  match (← get).pending with
  | some fault => throw fault
  | none => pure ()

def depthLimit : Nat := 2500

/-- Goes over the next token, which goes on. -/
def advance : Reader Unit := do
  settle
  if depthLimit ≤ (← read).depth then throw (.command .deepNesting none)
  modify fun reading => { reading with tokens := reading.tokens.drop 1 }

/-- Reads what stands behind some parts of a phrase. -/
def behind (parts : Nat) (reader : Reader α) : Reader α :=
  withReader (fun context => { context with depth := context.depth + parts }) reader

def accept (test : Token → Bool) : Reader Token := do
  match ← next? with
  | some token =>
      if test token then
        advance
        return token
      else refuse
  | none => refuse

def keyword (word : String) : Reader Unit := do
  let _ ← accept (·.isKeyword word)

def mark (text : String) : Reader Unit := do
  let _ ← accept (·.isMark text)

def skip (test : Token → Bool) : Reader Bool := do
  if ← nextIs test then
    advance
    return true
  else return false

def skipKeyword (word : String) : Reader Bool := skip (·.isKeyword word)

def skipMark (text : String) : Reader Bool := skip (·.isMark text)

def name : Reader String := return (← accept Token.isName).text

/-- Lets a fault wait, in the place of one that waited before. -/
def suspend (fault : Fault) (offset : Option Nat) : Reader Unit := do
  let context ← read
  modify fun reading =>
    { reading with
      pending := some (.command fault (offset.map fun offset => ⟨context.text, offset⟩)) }

def suspendAll (checked : Except EngineFault Unit) : Reader Unit :=
  match checked with
  | .ok () => pure ()
  | .error fault => modify fun reading => { reading with pending := some fault }

def goBeyond : Reader Unit := modify fun reading => { reading with beyond := true }

def offset : Reader Nat := return ((← next?).map (·.offset)).getD (← read).text.utf8ByteSize

/-- One item, and more of them after commas, behind those `seen`; `room` bounds their
    number. What is read of them is one part before a further comma. -/
def separatedFrom (item later : Reader α) (room : Nat) (seen : List α) : Reader (List α) := do
  let first ← item
  match room with
  | 0 => return (first :: seen).reverse
  | room + 1 =>
      if ← behind 1 (skipMark ",") then separatedFrom later later room (first :: seen)
      else return (first :: seen).reverse

def separated (item : Reader α) : Reader (List α) := do
  separatedFrom item (behind 2 item) (← get).tokens.length []

def inParentheses (inner : Reader α) : Reader α := do
  mark "("
  let value ← behind 1 inner
  behind 2 (mark ")")
  return value

end Reader

end SealedColumns.Sql
