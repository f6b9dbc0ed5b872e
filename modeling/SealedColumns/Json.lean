import SealedColumns.Decimal.Layout
import SealedColumns.Text.Listing
import SealedColumns.Text.Quoted

/-!
JSON documents: their compact text, their inspected form and their equality. The
fields of an object are ordered by name, each name occurring once.
-/

namespace SealedColumns

namespace Json

inductive Number where
  | integer (n : Int)
  | real (x : Binary64)
  deriving DecidableEq

/-- An integer and a real number are never equal. -/
def Number.numEq : Number → Number → Bool
  | .integer n, .integer m => n == m
  | .real x, .real y => x.numEq y
  | _, _ => false

def Number.text : Number → String
  | .integer n => toString n
  | .real x => x.text .document

end Json

inductive Json where
  | null
  | bool (b : Bool)
  | number (n : Json.Number)
  | string (text : String)
  | array (items : List Json)
  | object (fields : List (String × Json))

namespace Json

def escapeChar (c : Char) : List Char :=
  if c = '\x22' then ['\\', '\x22']
  else if c = '\\' then ['\\', '\\']
  else if c = '\x08' then ['\\', 'b']
  else if c = '\x0c' then ['\\', 'f']
  else if c = '\n' then ['\\', 'n']
  else if c = '\r' then ['\\', 'r']
  else if c = '\t' then ['\\', 't']
  else if c.toNat < 0x20 then
    ['\\', 'u', '0', '0'] ++ (if c.toNat < 0x10 then ['0'] else [])
      ++ Nat.toDigits 16 c.toNat
  else [c]

def stringText (text : String) : String :=
  "\"" ++ String.ofList (text.toList.flatMap escapeChar) ++ "\""

mutual

/-- The compact text, without blanks. -/
def text : Json → String
  | .null => "null"
  | .bool true => "true"
  | .bool false => "false"
  | .number n => n.text
  | .string s => stringText s
  | .array items => "[" ++ ",".intercalate (itemTexts items) ++ "]"
  | .object fields => "\x7b" ++ ",".intercalate (fieldTexts fields) ++ "\x7d"

def itemTexts : List Json → List String
  | [] => []
  | item :: rest => item.text :: itemTexts rest

def fieldTexts : List (String × Json) → List String
  | [] => []
  | (name, value) :: rest => (stringText name ++ ":" ++ value.text) :: fieldTexts rest

end

mutual

def inspect : Json → String
  | .null => "Null"
  | .bool true => "Bool(true)"
  | .bool false => "Bool(false)"
  | .number n => "Number(" ++ n.text ++ ")"
  | .string s => "String(" ++ Text.quoted s ++ ")"
  | .array items => "Array " ++ Text.bracketed (inspectItems items)
  | .object fields => "Object " ++ Text.braced (inspectFields fields)

def inspectItems : List Json → List String
  | [] => []
  | item :: rest => item.inspect :: inspectItems rest

def inspectFields : List (String × Json) → List String
  | [] => []
  | (name, value) :: rest =>
      (Text.quoted name ++ ": " ++ value.inspect) :: inspectFields rest

end

mutual

/-- Equality of documents, numbers being compared as numbers. -/
def equal : Json → Json → Bool
  | .null, .null => true
  | .bool a, .bool b => a == b
  | .number n, .number m => n.numEq m
  | .string s, .string t => s == t
  | .array left, .array right => equalItems left right
  | .object left, .object right => equalFields left right
  | _, _ => false

def equalItems : List Json → List Json → Bool
  | [], [] => true
  | left :: lefts, right :: rights => left.equal right && equalItems lefts rights
  | _, _ => false

def equalFields : List (String × Json) → List (String × Json) → Bool
  | [], [] => true
  | (name, left) :: lefts, (other, right) :: rights =>
      name == other && left.equal right && equalFields lefts rights
  | _, _ => false

end

end Json

end SealedColumns
