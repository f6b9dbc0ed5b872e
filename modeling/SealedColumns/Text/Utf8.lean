/-!
Bytes read as UTF-8. Reading succeeds on exactly the bytes of some text;
otherwise it names the first place where the bytes stop being a text.
-/

namespace SealedColumns.Text

def bytes (text : String) : List UInt8 := text.toUTF8.data.toList

/-- What ends the longest valid beginning of a byte sequence: `length` bytes that
    start no character, or the end of input inside a character. -/
inductive Utf8Fault where
  | malformed (index length : Nat)
  | truncated (index : Nat)
  deriving DecidableEq

/-- The byte ranges that may follow a first byte, or `none` if no character
    starts with it. Surrogates, overlong forms and code points above 10FFFF are
    cut off in the first of the ranges. -/
def followers (first : UInt8) : Option (List (UInt8 × UInt8)) :=
  if first < 0x80 then some []
  else if first < 0xc2 then none
  else if first < 0xe0 then some [(0x80, 0xbf)]
  else if first = 0xe0 then some [(0xa0, 0xbf), (0x80, 0xbf)]
  else if first = 0xed then some [(0x80, 0x9f), (0x80, 0xbf)]
  else if first < 0xf0 then some [(0x80, 0xbf), (0x80, 0xbf)]
  else if first = 0xf0 then some [(0x90, 0xbf), (0x80, 0xbf), (0x80, 0xbf)]
  else if first < 0xf4 then some [(0x80, 0xbf), (0x80, 0xbf), (0x80, 0xbf)]
  else if first = 0xf4 then some [(0x80, 0x8f), (0x80, 0xbf), (0x80, 0xbf)]
  else none

/-- `due` are the ranges still expected of the character that starts at `start`,
    of which `seen` bytes were read. -/
def firstFaultFrom (start seen : Nat) (due : List (UInt8 × UInt8)) :
    List UInt8 → Option Utf8Fault
  | [] => if due.isEmpty then none else some (.truncated start)
  | byte :: rest =>
      match due with
      | (low, high) :: more =>
          if low ≤ byte ∧ byte ≤ high then firstFaultFrom start (seen + 1) more rest
          else some (.malformed start seen)
      | [] =>
          match followers byte with
          | some ranges => firstFaultFrom (start + seen) 1 ranges rest
          | none => some (.malformed (start + seen) 1)

def firstFault (input : List UInt8) : Option Utf8Fault := firstFaultFrom 0 0 [] input

def decode? (input : List UInt8) : Option String := String.fromUTF8? ⟨input.toArray⟩

def decode (input : List UInt8) : Except Utf8Fault String :=
  match decode? input with
  | some text => .ok text
  | none => .error ((firstFault input).getD (.truncated input.length))

def Utf8Fault.message : Utf8Fault → String
  | .malformed index length =>
      s!"invalid utf-8 sequence of {length} bytes from index {index}"
  | .truncated index => s!"incomplete utf-8 byte sequence from index {index}"

theorem decode?_bytes (text : String) : decode? (bytes text) = some text := by
  unfold decode? bytes String.fromUTF8?
  rw [Array.toArray_toList, String.toUTF8_eq_toByteArray, dif_pos text.isValidUTF8]
  rfl

theorem eq_bytes_of_decode? {input : List UInt8} {text : String}
    (read : decode? input = some text) : input = bytes text := by
  unfold decode? String.fromUTF8? at read
  split at read
  · cases read
    rfl
  · contradiction

theorem decode?_eq_some_iff (input : List UInt8) (text : String) :
    decode? input = some text ↔ input = bytes text :=
  ⟨eq_bytes_of_decode?, fun same => same ▸ decode?_bytes text⟩

end SealedColumns.Text
