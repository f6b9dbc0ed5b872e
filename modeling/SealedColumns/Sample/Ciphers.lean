import SealedColumns.Cipher

/-!
Ciphers without a key, for trying out the passes: they are easy to read, some
refuse certain texts, and some leave padding behind a plaintext.
-/

namespace SealedColumns.Sample

def sealedMark : String := "enc:"

/-- The text behind a mark, if it begins with the mark. -/
def afterMark? (mark : String) (text : String) : Option String :=
  if mark.toList.isPrefixOf text.toList then
    some (String.ofList (text.toList.drop mark.toList.length))
  else none

def containsPart (part : List Char) : List Char → Bool
  | [] => part.isEmpty
  | c :: rest => part.isPrefixOf (c :: rest) || containsPart part rest

/-- Marks a plaintext, unless it contains the refused text; opening leaves a tab behind it. -/
def tag (refused : Option String) : Cipher where
  name := "tag"
  encrypt _ plaintext :=
    if refused.any (fun part => containsPart part.toList plaintext.toList) then
      .error (.failed (.refused ("refused: " ++ plaintext)))
    else .ok (sealedMark ++ plaintext)
  decrypt ciphertext :=
    match afterMark? sealedMark ciphertext with
    | some plaintext => .ok (plaintext ++ "\t")
    | none => .error (.malformed (.refused ciphertext))

/-- The text between brackets, if it stands in brackets. -/
def insideBrackets? (text : List Char) : Option (List Char) :=
  match text with
  | '[' :: rest => if rest.getLast? = some ']' then some rest.dropLast else none
  | _ => none

/-- Reverses a plaintext and puts it in brackets; opening leaves two spaces and a
    NUL behind it. -/
def reversing : Cipher where
  name := "reversing"
  encrypt _ plaintext := .ok ("[" ++ String.ofList plaintext.toList.reverse ++ "]")
  decrypt ciphertext :=
    match insideBrackets? ciphertext.toList with
    | some inside => .ok (String.ofList inside.reverse ++ "  \x00")
    | none => .error (.malformed (.refused ciphertext))

/-- Leaves a plaintext as it is; opening puts a suffix behind it. -/
def pad (suffix : String) : Cipher where
  name := "pad"
  encrypt _ plaintext := .ok plaintext
  decrypt ciphertext := .ok (ciphertext ++ suffix)

def refuse : Cipher where
  name := "refuse"
  encrypt _ _ := .error (.failed (.refused "no encrypt"))
  decrypt _ := .error (.invalidKey (.refused "no decrypt"))

end SealedColumns.Sample
