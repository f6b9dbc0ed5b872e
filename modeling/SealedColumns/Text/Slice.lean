/-!
Cutting text at a number of bytes. A character that the cut would divide goes
with the bytes before it.
-/

namespace SealedColumns.Text

def takeBytes (count : Nat) : List Char → List Char
  | [] => []
  | c :: rest => if count = 0 then [] else c :: takeBytes (count - c.utf8Size) rest

def dropBytes (count : Nat) : List Char → List Char
  | [] => []
  | c :: rest => if count = 0 then c :: rest else dropBytes (count - c.utf8Size) rest

theorem takeBytes_append_dropBytes (count : Nat) (text : List Char) :
    takeBytes count text ++ dropBytes count text = text := by
  induction text generalizing count with
  | nil => rfl
  | cons c rest ih => by_cases here : count = 0 <;> simp [takeBytes, dropBytes, here, ih]

end SealedColumns.Text
