import SealedColumns.Text.Joining
import SealedColumns.Text.Shapeless
import SealedColumns.Text.Utf8

/-!
Text in double quotes, for messages and listings. Quote, backslash and the usual
control characters get short escapes; other characters without a shape, and those
drawn with the one before, are written as their code point in hexadecimal.
-/

namespace SealedColumns.Text

def escapeChar (c : Char) : List Char :=
  if c = '\x22' then ['\\', '\x22']
  else if c = '\\' then ['\\', '\\']
  else if c = '\x00' then ['\\', '0']
  else if c = '\n' then ['\\', 'n']
  else if c = '\r' then ['\\', 'r']
  else if c = '\t' then ['\\', 't']
  else if isJoining c || isShapeless c then
    ['\\', 'u', '\x7b'] ++ Nat.toDigits 16 c.toNat ++ ['\x7d']
  else [c]

def escape (text : String) : String := String.ofList (text.toList.flatMap escapeChar)

def quoted (text : String) : String := "\"" ++ escape text ++ "\""

/-- Bytes that are not UTF-8 throughout: each byte of a broken place is written
    in two upper-case hexadecimal digits. `room` bounds the number of pieces. -/
def escapeBytes (room : Nat) (input : List UInt8) : String :=
  match room, firstFault input with
  | _, none => escape ((decode? input).getD "")
  | 0, some _ => ""
  | room + 1, some fault =>
      let (start, broken) := match fault with
        | .malformed index length => (index, length)
        | .truncated index => (index, input.length - index)
      escape ((decode? (input.take start)).getD "")
        ++ String.join (((input.drop start).take broken).map byteCode)
        ++ escapeBytes room (input.drop (start + broken))
where
  byteCode (byte : UInt8) : String :=
    let digit (n : Nat) : Char := if n < 10 then Char.ofNat (48 + n) else Char.ofNat (55 + n)
    String.ofList ['\\', 'x', digit (byte.toNat / 16), digit (byte.toNat % 16)]

def quotedBytes (input : List UInt8) : String :=
  "\"" ++ escapeBytes input.length input ++ "\""

end SealedColumns.Text
