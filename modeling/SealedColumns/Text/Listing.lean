/-!
Bracketed listings and field records, as shown when a value is inspected.
-/

namespace SealedColumns.Text

def commaSeparated (items : List String) : String := ", ".intercalate items

def bracketed (items : List String) : String := "[" ++ commaSeparated items ++ "]"

/-- Empty braces when there is nothing to list. -/
def braced (items : List String) : String := "\x7b" ++ commaSeparated items ++ "\x7d"

def fieldText (field : String × String) : String := field.1 ++ ": " ++ field.2

def record (name : String) (fields : List (String × String)) : String :=
  name ++ " \x7b " ++ commaSeparated (fields.map fieldText) ++ " \x7d"

/-- A record of which some fields stay hidden: two dots stand for those. -/
def openRecord (name : String) (fields : List (String × String)) : String :=
  name ++ " \x7b " ++ commaSeparated (fields.map fieldText ++ [".."]) ++ " \x7d"

end SealedColumns.Text
