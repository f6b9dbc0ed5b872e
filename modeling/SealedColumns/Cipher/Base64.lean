import SealedColumns.Text.Utf8

/-!
Bytes written with 64 symbols, three bytes in four symbols, padded to whole
groups. Reading wants the padding and wants the bits that carry nothing to be
zero, so each byte sequence has one written form. The fault that is told is the
first that a reader from left to right finds, except that a lone last byte which
is no symbol comes before all others.
-/

namespace SealedColumns.Base64

inductive Fault where
  | symbol (byte : UInt8) (offset : Nat)
  | length (symbols : Nat)
  | padding
  | lastSymbol (byte : UInt8) (offset : Nat)
  deriving DecidableEq

def Fault.message : Fault → String
  | .symbol byte offset => s!"Invalid symbol {byte.toNat}, offset {offset}."
  | .length symbols => s!"Invalid input length: {symbols}"
  | .padding => "Invalid padding"
  | .lastSymbol byte offset => s!"Invalid last symbol {byte.toNat}, offset {offset}."

def pad : UInt8 := 61

/-- The symbol of a number below 64: capitals, small letters, digits, plus, slash. -/
def symbol (n : Nat) : UInt8 :=
  if n < 26 then (65 + n).toUInt8
  else if n < 52 then (71 + n).toUInt8
  else if n < 62 then (n - 4).toUInt8
  else if n = 62 then 43
  else 47

def symbolValue? (byte : UInt8) : Option Nat :=
  if 65 ≤ byte ∧ byte ≤ 90 then some (byte.toNat - 65)
  else if 97 ≤ byte ∧ byte ≤ 122 then some (byte.toNat - 71)
  else if 48 ≤ byte ∧ byte ≤ 57 then some (byte.toNat + 4)
  else if byte = 43 then some 62
  else if byte = 47 then some 63
  else none

def encode : List UInt8 → List UInt8
  | [] => []
  | [a] => [symbol (a.toNat / 4), symbol (a.toNat % 4 * 16), pad, pad]
  | [a, b] =>
      [symbol (a.toNat / 4), symbol (a.toNat % 4 * 16 + b.toNat / 16),
       symbol (b.toNat % 16 * 4), pad]
  | a :: b :: c :: rest =>
      symbol (a.toNat / 4) :: symbol (a.toNat % 4 * 16 + b.toNat / 16)
        :: symbol (b.toNat % 16 * 4 + c.toNat / 64) :: symbol (c.toNat % 64)
        :: encode rest

def encodeText (data : List UInt8) : String :=
  String.ofList ((encode data).map (fun byte => Char.ofNat byte.toNat))

def readSymbol (offset : Nat) (byte : UInt8) : Except Fault Nat :=
  match symbolValue? byte with
  | some value => .ok value
  | none => .error (.symbol byte offset)

/-- The symbols of the last group and the count of pads behind them. -/
structure LastGroup where
  symbols : List (UInt8 × Nat)
  pads : Nat

/-- Reads the last group from its place `index` on. `firstPad` is the offset of the
    first pad read. -/
def readLastGroup (start index : Nat) (firstPad : Option Nat) :
    List UInt8 → Except Fault LastGroup
  | [] => .ok ⟨[], 0⟩
  | byte :: rest =>
      if byte = pad then
        if index < 2 then .error (.symbol pad (start + index))
        else do
          let group ← readLastGroup start (index + 1)
            (some (firstPad.getD (start + index))) rest
          .ok ⟨group.symbols, group.pads + 1⟩
      else
        match firstPad with
        | some offset => .error (.symbol pad offset)
        | none => do
            let value ← readSymbol (start + index) byte
            let group ← readLastGroup start (index + 1) none rest
            .ok ⟨(byte, value) :: group.symbols, group.pads⟩

/-- The bytes of the last group. Bits that belong to no byte must be zero. -/
def LastGroup.bytes (group : LastGroup) (start : Nat) : Except Fault (List UInt8) :=
  match group.symbols with
  | [] | [_] => .error (.length (start + group.symbols.length))
  | (_, a) :: (byte, b) :: [] =>
      if group.pads ≠ 2 then .error .padding
      else if b % 16 ≠ 0 then .error (.lastSymbol byte (start + 1))
      else .ok [(a * 4 + b / 16).toUInt8]
  | (_, a) :: (_, b) :: (byte, c) :: [] =>
      if group.pads ≠ 1 then .error .padding
      else if c % 4 ≠ 0 then .error (.lastSymbol byte (start + 2))
      else .ok [(a * 4 + b / 16).toUInt8, (b % 16 * 16 + c / 4).toUInt8]
  | (_, a) :: (_, b) :: (_, c) :: (_, d) :: _ =>
      .ok [(a * 4 + b / 16).toUInt8, (b % 16 * 16 + c / 4).toUInt8,
        (c % 4 * 64 + d).toUInt8]

/-- Reads whole groups as long as more input follows, then the last group. -/
def decodeFrom (offset : Nat) : List UInt8 → Except Fault (List UInt8)
  | [] => .ok []
  | a :: b :: c :: d :: e :: rest => do
      let v ← readSymbol offset a
      let w ← readSymbol (offset + 1) b
      let x ← readSymbol (offset + 2) c
      let y ← readSymbol (offset + 3) d
      let more ← decodeFrom (offset + 4) (e :: rest)
      .ok ((v * 4 + w / 16).toUInt8 :: (w % 16 * 16 + x / 4).toUInt8
        :: (x % 4 * 64 + y).toUInt8 :: more)
  | last => do
      let group ← readLastGroup offset 0 none last
      group.bytes offset

def loneLast? (input : List UInt8) : Option Fault :=
  match input.getLast? with
  | some byte =>
      if input.length % 4 = 1 ∧ byte ≠ pad ∧ symbolValue? byte = none then
        some (.symbol byte (input.length - 1))
      else none
  | none => none

def decode (input : List UInt8) : Except Fault (List UInt8) :=
  match loneLast? input with
  | some fault => .error fault
  | none => decodeFrom 0 input

end SealedColumns.Base64
