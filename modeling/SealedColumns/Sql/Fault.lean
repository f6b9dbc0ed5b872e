/-!
What can be wrong with a command of SQL, by cause. Some faults stand at a place in
the text of the command, which is then told with them.
-/

namespace SealedColumns.Sql

/-- A place in a text, counted in bytes. -/
structure Place where
  text : String
  offset : Nat
  deriving DecidableEq

inductive Fault where
  | nearToken (token : String)
  | badToken (token : String)
  | incomplete
  | deepExpression
  | deepNesting
  | variableRange
  | manyVariables
  | joinRequired (word : String)
  | reservedName (name : String)
  | tableExists (name : String)
  | manyColumns (table : String)
  | manyAssignments
  | assignedValues (columns values : Nat)
  | manyResults
  | manyOrderTerms
  | repeatedColumn (name : String)
  | severalPrimaryKeys (table : String)
  | unknownTableOption (name : String)
  | unknownCollation (name : String)
  | missingType (table column : String)
  | unknownType (table column type : String)
  | missingPrimaryKey (table : String)
  | unknownDatabase (name : String)
  | unknownTable (name : String)
  | unknownColumn (name : String)
  | unknownInserted (table name : String)
  | unknownFunction (name : String)
  | valueCount (table : String) (columns values : Nat)
  | valuesForColumns (values columns : Nat)
  | unevenRows
  | noTables
  | rowMisused
  | orderRange (term columns : Nat)
  | largeHexadecimal (numeral : String)
  | mismatch
  | nullInColumn (table column : String)
  | repeatedInColumns (table : String) (columns : List String)
  | notCarriedOut
  deriving DecidableEq

namespace Fault

def ordinalEnding (n : Nat) : String :=
  if n / 10 % 10 = 1 then "th"
  else
    match n % 10 with
    | 1 => "st"
    | 2 => "nd"
    | 3 => "rd"
    | _ => "th"

def message : Fault → String
  | nearToken token => "near \"" ++ token ++ "\": syntax error"
  | badToken token => "unrecognized token: \"" ++ token ++ "\""
  | incomplete => "incomplete input"
  | deepExpression => "Expression tree is too large (maximum depth 1000)"
  | deepNesting => "Recursion limit"
  | variableRange => "variable number must be between ?1 and ?32766"
  | manyVariables => "too many SQL variables"
  | joinRequired word => "a JOIN clause is required before " ++ word
  | reservedName name => "object name reserved for internal use: " ++ name
  | tableExists name => "table " ++ name ++ " already exists"
  | manyColumns table => "too many columns on " ++ table
  | manyAssignments => "too many columns in set list"
  | assignedValues columns values => s!"{columns} columns assigned {values} values"
  | manyResults => "too many columns in result set"
  | manyOrderTerms => "too many terms in ORDER BY clause"
  | repeatedColumn name => "duplicate column name: " ++ name
  | severalPrimaryKeys table => "table \"" ++ table ++ "\" has more than one primary key"
  | unknownTableOption name => "unknown table option: " ++ name
  | unknownCollation name => "no such collation sequence: " ++ name
  | missingType table column => "missing datatype for " ++ table ++ "." ++ column
  | unknownType table column type =>
      "unknown datatype for " ++ table ++ "." ++ column ++ ": \"" ++ type ++ "\""
  | missingPrimaryKey table => "PRIMARY KEY missing on table " ++ table
  | unknownDatabase name => "unknown database " ++ name
  | unknownTable name => "no such table: " ++ name
  | unknownColumn name => "no such column: " ++ name
  | unknownInserted table name => "table " ++ table ++ " has no column named " ++ name
  | unknownFunction name => "no such function: " ++ name
  | valueCount table columns values =>
      "table " ++ table ++ s!" has {columns} columns but {values} values were supplied"
  | valuesForColumns values columns => s!"{values} values for {columns} columns"
  | unevenRows => "all VALUES must have the same number of terms"
  | noTables => "no tables specified"
  | rowMisused => "row value misused"
  | orderRange term columns =>
      Nat.repr term ++ ordinalEnding term
        ++ s!" ORDER BY term out of range - should be between 1 and {columns}"
  | largeHexadecimal numeral => "hex literal too big: " ++ numeral
  | mismatch => "datatype mismatch"
  | nullInColumn table column => "NOT NULL constraint failed: " ++ table ++ "." ++ column
  | repeatedInColumns table columns =>
      "UNIQUE constraint failed: "
        ++ ", ".intercalate (columns.map fun column => table ++ "." ++ column)
  | notCarriedOut => "the command is beyond this engine"

end Fault

end SealedColumns.Sql
