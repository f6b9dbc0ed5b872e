import SealedColumns.Json.Reader

/-!
The tokens of SQL text, with the bytes they stand at. White space, comments and byte
order marks stand between tokens. A text ends at its first NUL.
-/

namespace SealedColumns.Sql

/-- Words keep their capital form, by which keywords are told. Those that speak of
    windows of rows are told by their neighbours. -/
inductive TokenKind where
  | word (capitals : String)
  | windowWord (capitals : String)
  | quotedName (quote : Char)
  | string
  | blob (data : List UInt8)
  | number
  | parameter
  | mark
  | malformed
  deriving DecidableEq

/-- `text` is what the token stands for and `source` what is written. -/
structure Token where
  kind : TokenKind
  text : String
  source : String
  offset : Nat
  deriving DecidableEq

def Token.stop (token : Token) : Nat := token.offset + token.source.utf8ByteSize

/-- What stands at the start of a text, and how many characters it takes. A gap has
    no kind. -/
structure Lexeme where
  kind : Option TokenKind
  text : List Char
  size : Nat

namespace Lexeme

def gap (size : Nat) : Lexeme := ⟨none, [], size⟩

def malformed (size : Nat) : Lexeme := ⟨some .malformed, [], size⟩

def isSpace (c : Char) : Bool :=
  c == ' ' || c == '\t' || c == '\n' || c == '\x0c' || c == '\r'

/-- A vertical tab counts as white space only behind other white space. -/
def continuesSpace (c : Char) : Bool := isSpace c || c == '\x0b'

def isWordChar (c : Char) : Bool :=
  c.isAlphanum || c == '_' || c == '$' || 0x80 ≤ c.toNat

def isHexDigit (c : Char) : Bool := (Json.hexDigit? c).isSome

def countWhile (test : Char → Bool) (input : List Char) : Nat := (input.takeWhile test).length

def commentSize : List Char → Nat → Nat
  | [], seen => seen
  | '*' :: '/' :: _, seen => seen + 2
  | _ :: rest, seen => commentSize rest (seen + 1)

def readQuoted (quote : Char) (seen : List Char) (size : Nat) :
    List Char → Option (List Char × Nat)
  | [] => none
  | [c] => if c = quote then some (seen.reverse, size + 1) else none
  | c :: d :: rest =>
      if c = quote then
        if d = quote then readQuoted quote (quote :: seen) (size + 2) rest
        else some (seen.reverse, size + 1)
      else readQuoted quote (c :: seen) (size + 1) (d :: rest)

/-- A quoted text, which without its closing quote is malformed. -/
def quoted (kind : TokenKind) (quote : Char) (rest : List Char) : Lexeme :=
  match readQuoted quote [] 1 rest with
  | some (text, size) => ⟨some kind, text, size⟩
  | none => malformed (rest.length + 1)

def bracketed (rest : List Char) : Lexeme :=
  let name := rest.takeWhile (· != ']')
  match rest.drop name.length with
  | [] => malformed (name.length + 1)
  | _ => ⟨some (.quotedName '['), name, name.length + 2⟩

def hexBytes? : List Char → Option (List UInt8)
  | [] => some []
  | high :: low :: rest => do
      let h ← Json.hexDigit? high
      let l ← Json.hexDigit? low
      let more ← hexBytes? rest
      some ((h * 16 + l).toUInt8 :: more)
  | _ => none

def blob (rest : List Char) : Lexeme :=
  let digits := rest.takeWhile (· != '\x27')
  match rest.drop digits.length, hexBytes? digits with
  | [], _ => malformed (digits.length + 2)
  | _, some data => ⟨some (.blob data), digits, digits.length + 3⟩
  | _, none => malformed (digits.length + 3)

def isDigitOrJoint (c : Char) : Bool := c.isDigit || c == '_'

def fractionSize : List Char → Nat
  | '.' :: rest => countWhile isDigitOrJoint rest + 1
  | _ => 0

def exponentSize : List Char → Nat
  | mark :: first :: rest =>
      if mark = 'e' ∨ mark = 'E' then
        if first.isDigit then countWhile isDigitOrJoint rest + 2
        else if (first = '+' ∨ first = '-') ∧ rest.head?.any Char.isDigit then
          countWhile isDigitOrJoint rest + 2
        else 0
      else 0
  | _ => 0

def decimalSize (input : List Char) : Nat :=
  let whole := countWhile isDigitOrJoint input
  let placed := whole + fractionSize (input.drop whole)
  placed + exponentSize (input.drop placed)

def numberSize (input : List Char) : Nat :=
  match input with
  | '0' :: x :: digit :: rest =>
      if (x = 'x' ∨ x = 'X') ∧ isHexDigit digit then
        countWhile (fun c => isHexDigit c || c == '_') rest + 3
      else decimalSize input
  | _ => decimalSize input

/-- A number; with further word characters behind it, it is malformed. -/
def number (input : List Char) : Lexeme :=
  let size := numberSize input
  let behind := countWhile isWordChar (input.drop size)
  if behind = 0 then ⟨some .number, input.take size, size⟩ else malformed (size + behind)

/-- The length of the name of a parameter, and whether it is one. A name may hold
    double colons and end in a part in parentheses. -/
def nameSize (named : Bool) (size : Nat) : List Char → Bool × Nat
  | [] => (named, size)
  | ':' :: ':' :: rest => nameSize named (size + 2) rest
  | c :: rest =>
      if isWordChar c then nameSize true (size + 1) rest
      else if c = '(' ∧ named then
        let inner := countWhile (fun d => !(continuesSpace d || d == ')')) rest
        match rest.drop inner with
        | ')' :: _ => (true, size + inner + 2)
        | _ => (false, size + inner + 1)
      else (named, size)

def parameter (sigil : Char) (rest : List Char) : Lexeme :=
  match nameSize false 0 rest with
  | (true, size) => ⟨some .parameter, sigil :: rest.take size, size + 1⟩
  | (false, size) => malformed (size + 1)

def word (input : List Char) : Lexeme :=
  let text := input.takeWhile isWordChar
  ⟨some (.word (String.ofList (text.map Char.toUpper))), text, text.length⟩

def longMarks : List (List Char) :=
  ["->>", "->", "==", "<=", "<>", "<<", ">=", ">>", "!=", "||"].map String.toList

def isMark (c : Char) : Bool := "()+-*/%=<>|&~,.;".toList.contains c

def mark (c : Char) (rest : List Char) : Lexeme :=
  match longMarks.find? (·.isPrefixOf (c :: rest)) with
  | some long => ⟨some .mark, long, long.length⟩
  | none => if isMark c then ⟨some .mark, [c], 1⟩ else malformed 1

def read (c : Char) (rest : List Char) : Lexeme :=
  if isSpace c then gap (countWhile continuesSpace rest + 1)
  else if c = '\ufeff' then gap 1
  else if c = '-' ∧ rest.head? = some '-' then gap (countWhile (· != '\n') rest + 1)
  else if c = '/' ∧ rest.head? = some '*' ∧ rest.length ≠ 1 then
    gap (commentSize (rest.drop 1) 2)
  else if c = '\x27' then quoted .string c rest
  else if c = '\x22' ∨ c = '\x60' then quoted (.quotedName c) c rest
  else if c = '[' then bracketed rest
  else if (c = 'x' ∨ c = 'X') ∧ rest.head? = some '\x27' then blob (rest.drop 1)
  else if c.isDigit ∨ (c = '.' ∧ rest.head?.any Char.isDigit) then number (c :: rest)
  else if c = '?' then
    let digits := rest.takeWhile Char.isDigit
    ⟨some .parameter, c :: digits, digits.length + 1⟩
  else if c = ':' ∨ c = '@' ∨ c = '#' ∨ c = '$' then parameter c rest
  else if isWordChar c then word (c :: rest)
  else mark c rest

end Lexeme

namespace Token

def isKeyword (word : String) (token : Token) : Bool := token.kind == .word word

def isMark (mark : String) (token : Token) : Bool :=
  token.kind == .mark && token.text == mark

/-- The tokens of the first command of a text that starts at byte `offset`, behind those
    `seen` before it, up to its semicolon. Semicolons before the command are left out.
    Each step takes a character, so `room` for one step per character is enough. -/
def commandFrom (room offset : Nat) (seen : List Token) (input : List Char) : List Token :=
  match room, input with
  | 0, _ => seen.reverse
  | _, [] => seen.reverse
  | room + 1, c :: rest =>
      let lexeme := Lexeme.read c rest
      let source := String.ofList (input.take lexeme.size)
      let stop := offset + source.utf8ByteSize
      let behind := input.drop lexeme.size
      match lexeme.kind with
      | none => commandFrom room stop seen behind
      | some kind =>
          let token := { kind, text := String.ofList lexeme.text, source, offset }
          if token.isMark ";" then
            if seen.isEmpty then commandFrom room stop [] behind else (token :: seen).reverse
          else commandFrom room stop (token :: seen) behind

def ofCommand (sql : String) : List Token :=
  commandFrom sql.length 0 [] (sql.toList.takeWhile (· != '\x00'))

end Token

end SealedColumns.Sql
