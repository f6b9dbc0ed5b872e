import SealedColumns.Sql.Token

/-!
The names in SQL text. Names and keywords that differ only in the case of ASCII
letters are the same, and most keywords may stand for names.
-/

namespace SealedColumns.Sql

def sameName (first second : String) : Bool :=
  first.map Char.toLower == second.map Char.toLower

def reserved : List String :=
  ["ADD", "ALL", "ALTER", "AND", "AS", "AUTOINCREMENT", "BETWEEN", "CASE", "CHECK",
   "COLLATE", "COMMIT", "CONSTRAINT", "CREATE", "DEFAULT", "DEFERRABLE", "DELETE",
   "DISTINCT", "DROP", "ELSE", "ESCAPE", "EXCEPT", "EXISTS", "FOREIGN", "FROM",
   "GROUP", "HAVING", "IN", "INDEX", "INSERT", "INTERSECT", "INTO", "IS", "ISNULL",
   "JOIN", "LIMIT", "NOT", "NOTHING", "NOTNULL", "NULL", "ON", "OR", "ORDER",
   "PRIMARY", "REFERENCES", "RETURNING", "SELECT", "SET", "TABLE", "THEN", "TO",
   "TRANSACTION", "UNION", "UNIQUE", "UPDATE", "USING", "VALUES", "WHEN", "WHERE"]

/-- The keywords that say how tables are joined. They are names where one must follow. -/
def joining : List String := ["CROSS", "FULL", "INNER", "LEFT", "NATURAL", "OUTER", "RIGHT"]

/-- The operators that are written as words and may be names. -/
def matching : List String := ["GLOB", "LIKE", "MATCH", "REGEXP"]

/-- The names of a row's number, unless columns have them. -/
def isRowNumberName (name : String) : Bool :=
  ["rowid", "oid", "_rowid_"].any (sameName name)

def isReservedName (name : String) : Bool := sameName (String.ofList (name.toList.take 7)) "sqlite_"

namespace Token

def isJoining (token : Token) : Bool :=
  match token.kind with
  | .word word => joining.contains word
  | _ => false

def isMatching (token : Token) : Bool :=
  match token.kind with
  | .word word => matching.contains word
  | _ => false

def isPlainName (token : Token) : Bool :=
  match token.kind with
  | .word word => !reserved.contains word && !joining.contains word && word != "INDEXED"
  | .quotedName _ => true
  | _ => false

/-- A name where one must follow that is not written as a string. -/
def isReference (token : Token) : Bool :=
  match token.kind with
  | .word word => !reserved.contains word
  | .quotedName _ => true
  | _ => false

/-- A name where one must follow. -/
def isName (token : Token) : Bool := token.isReference || token.kind == .string

/-- A name that may follow without any keyword before it. -/
def isLabel (token : Token) : Bool := token.isPlainName || token.kind == .string

def isWindowWord (word : String) (token : Token) : Bool := token.kind == .windowWord word

def speaksOfWindows (before : Option Token) (word : String) (behind : List Token) : Bool :=
  let isNamed (token : Token) : Bool :=
    token.isName && !token.isKeyword "INDEXED" && !token.isKeyword "FILTER"
  match word, behind with
  | "WINDOW", name :: next :: _ => isNamed name && next.isKeyword "AS"
  | "OVER", next :: _ => before.any (·.isMark ")") && (next.isMark "(" || isNamed next)
  | "FILTER", next :: _ => before.any (·.isMark ")") && next.isMark "("
  | _, _ => false

def withWindowWords (before : Option Token) : List Token → List Token
  | [] => []
  | token :: rest =>
      let told := match token.kind with
        | .word word =>
            if speaksOfWindows before word rest then { token with kind := .windowWord word }
            else token
        | _ => token
      told :: withWindowWords (some token) rest

end Token

end SealedColumns.Sql
