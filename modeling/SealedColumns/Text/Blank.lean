/-!
White space in the sense of the Unicode property `White_Space`, and trimming.
The padding that a cipher may leave behind a plaintext is white space or NUL.
-/

namespace SealedColumns.Text

/-- The 25 characters with the property `White_Space`. -/
def isBlank (c : Char) : Bool :=
  (0x09 ≤ c.toNat && c.toNat ≤ 0x0d) || c.toNat == 0x20 || c.toNat == 0x85
    || c.toNat == 0xa0 || c.toNat == 0x1680
    || (0x2000 ≤ c.toNat && c.toNat ≤ 0x200a) || c.toNat == 0x2028
    || c.toNat == 0x2029 || c.toNat == 0x202f || c.toNat == 0x205f
    || c.toNat == 0x3000

def isPadding (c : Char) : Bool := isBlank c || c == '\x00'

def dropTrailing (drop : Char → Bool) (text : List Char) : List Char :=
  (text.reverse.dropWhile drop).reverse

def trim (text : String) : String :=
  String.ofList (dropTrailing isBlank (text.toList.dropWhile isBlank))

def withoutPadding (text : String) : String :=
  String.ofList (dropTrailing isPadding text.toList)

end SealedColumns.Text
