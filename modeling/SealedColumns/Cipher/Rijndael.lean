/-!
The block cipher with blocks of 128 bits and keys of 256 bits: fourteen rounds of
byte substitution, row rotation and column mixing over a field of 256 elements,
each followed by the addition of a round key.
-/

namespace SealedColumns.Rijndael

/-- Multiplication by the field's `x`. -/
def double (a : UInt8) : UInt8 :=
  (a <<< 1) ^^^ (if a &&& 0x80 = 0 then 0 else 0x1b)

/-- Multiplication in the field, by the lowest `steps` bits of the second factor. -/
def multiply (steps : Nat) (a b : UInt8) : UInt8 :=
  match steps with
  | 0 => 0
  | steps + 1 =>
      (if b &&& 1 = 0 then 0 else a) ^^^ multiply steps (double a) (b >>> 1)

/-- The 254th power, which inverts every element but zero. -/
def inverse (a : UInt8) : UInt8 :=
  let square (x : UInt8) := multiply 8 x x
  let a2 := square a
  let a4 := square a2
  let a8 := square a4
  let a16 := square a8
  let a32 := square a16
  let a64 := square a32
  let a128 := square a64
  [a4, a8, a16, a32, a64, a128].foldl (multiply 8) a2

def rotate (a : UInt8) (count : UInt8) : UInt8 := (a <<< count) ||| (a >>> (8 - count))

def substitution (a : UInt8) : UInt8 :=
  let b := inverse a
  b ^^^ rotate b 1 ^^^ rotate b 2 ^^^ rotate b 3 ^^^ rotate b 4 ^^^ 0x63

def substitutionTable : Array UInt8 :=
  ((List.range 256).map (fun n => substitution n.toUInt8)).toArray

def substitute (a : UInt8) : UInt8 := substitutionTable.getD a.toNat 0

/-- A column of the state, or a word of the key schedule. -/
structure Word where
  a : UInt8
  b : UInt8
  c : UInt8
  d : UInt8
  deriving DecidableEq, Inhabited

def Word.add (v w : Word) : Word := ⟨v.a ^^^ w.a, v.b ^^^ w.b, v.c ^^^ w.c, v.d ^^^ w.d⟩

def Word.substitute (w : Word) : Word :=
  ⟨Rijndael.substitute w.a, Rijndael.substitute w.b, Rijndael.substitute w.c,
    Rijndael.substitute w.d⟩

def Word.turn (w : Word) : Word := ⟨w.b, w.c, w.d, w.a⟩

def Word.mix (w : Word) : Word :=
  let sum := w.a ^^^ w.b ^^^ w.c ^^^ w.d
  ⟨w.a ^^^ sum ^^^ double (w.a ^^^ w.b), w.b ^^^ sum ^^^ double (w.b ^^^ w.c),
    w.c ^^^ sum ^^^ double (w.c ^^^ w.d), w.d ^^^ sum ^^^ double (w.d ^^^ w.a)⟩

structure Block where
  w : Word
  x : Word
  y : Word
  z : Word
  deriving DecidableEq, Inhabited

def Block.add (s t : Block) : Block := ⟨s.w.add t.w, s.x.add t.x, s.y.add t.y, s.z.add t.z⟩

def Block.substitute (s : Block) : Block :=
  ⟨s.w.substitute, s.x.substitute, s.y.substitute, s.z.substitute⟩

/-- Row `r` moves `r` columns to the left. -/
def Block.shiftRows (s : Block) : Block :=
  ⟨⟨s.w.a, s.x.b, s.y.c, s.z.d⟩, ⟨s.x.a, s.y.b, s.z.c, s.w.d⟩,
    ⟨s.y.a, s.z.b, s.w.c, s.x.d⟩, ⟨s.z.a, s.w.b, s.x.c, s.y.d⟩⟩

def Block.mixColumns (s : Block) : Block := ⟨s.w.mix, s.x.mix, s.y.mix, s.z.mix⟩

/-- Two round keys give the next two. -/
def nextKeys (constant : UInt8) (first second : Block) : Block × Block :=
  let turned := second.z.turn.substitute
  let w := first.w.add { turned with a := turned.a ^^^ constant }
  let x := first.x.add w
  let y := first.y.add x
  let z := first.z.add y
  let w2 := second.w.add z.substitute
  let x2 := second.x.add w2
  let y2 := second.y.add x2
  let z2 := second.z.add y2
  (⟨w, x, y, z⟩, ⟨w2, x2, y2, z2⟩)

def roundKeysFrom (constant : UInt8) (first second : Block) (pairs : Nat) : List Block :=
  match pairs with
  | 0 => [first]
  | pairs + 1 =>
      let (next, after) := nextKeys constant first second
      first :: second :: roundKeysFrom (double constant) next after pairs

/-- The key as two blocks, and the fifteen round keys it gives. -/
def roundKeys (first second : Block) : List Block := roundKeysFrom 1 first second 7

def rounds (state : Block) : List Block → Block
  | [] => state
  | [last] => state.substitute.shiftRows.add last
  | key :: rest => rounds (state.substitute.shiftRows.mixColumns.add key) rest

def encryptWith (keys : List Block) (state : Block) : Block :=
  match keys with
  | [] => state
  | first :: rest => rounds (state.add first) rest

def Word.toBytes (w : Word) : List UInt8 := [w.a, w.b, w.c, w.d]

def Block.toBytes (s : Block) : List UInt8 :=
  s.w.toBytes ++ s.x.toBytes ++ s.y.toBytes ++ s.z.toBytes

def Word.ofBytes (data : List UInt8) : Word :=
  ⟨data.getD 0 0, data.getD 1 0, data.getD 2 0, data.getD 3 0⟩

/-- Missing bytes are zero, and bytes after the sixteenth are left out. -/
def Block.ofBytes (data : List UInt8) : Block :=
  ⟨.ofBytes data, .ofBytes (data.drop 4), .ofBytes (data.drop 8), .ofBytes (data.drop 12)⟩

theorem Block.length_toBytes (s : Block) : s.toBytes.length = 16 := rfl

end SealedColumns.Rijndael
