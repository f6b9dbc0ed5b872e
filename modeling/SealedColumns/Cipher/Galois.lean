import SealedColumns.Cipher.Rijndael

/-!
Authenticated encryption from a block cipher: the plaintext is added to the
encryptions of successive counter blocks, and a tag of sixteen bytes, a
polynomial of the ciphertext over a field of 2 ^ 128 elements, follows it.
-/

namespace SealedColumns.Galois

open Rijndael (Block)

/-- Big-endian bytes of a number, the highest left out if they do not fit. -/
def bigEndian (count n : Nat) : List UInt8 :=
  match count with
  | 0 => []
  | count + 1 => bigEndian count (n / 256) ++ [n.toUInt8]

def ofBigEndian (data : List UInt8) : Nat :=
  data.foldl (fun n byte => n * 256 + byte.toNat) 0

/-- One step of the product: bit `127 - steps` of the first factor decides whether
    the second, which moves down one place each step, is added. -/
def productFrom (x : BitVec 128) (steps : Nat) (v sum : BitVec 128) : BitVec 128 :=
  match steps with
  | 0 => sum
  | steps + 1 =>
      let sum := if x.getLsbD steps then sum ^^^ v else sum
      let moved := v >>> 1
      let v := if v.getLsbD 0 then moved ^^^ (0xe1#128 <<< 120) else moved
      productFrom x steps v sum

def product (x y : BitVec 128) : BitVec 128 := productFrom x 128 y 0

/-- Blocks of sixteen bytes, the last filled up with zeros. -/
def blocksOf (data : List UInt8) : List (List UInt8) :=
  if data.isEmpty then []
  else
    let block := data.take 16
    (block ++ List.replicate (16 - block.length) 0) :: blocksOf (data.drop 16)
termination_by data.length
decreasing_by
  cases data with
  | nil => simp at *
  | cons first rest => simp only [List.length_drop, List.length_cons]; omega

/-- The polynomial of the ciphertext, closed by its length in bits. -/
def digest (h : BitVec 128) (ciphertext : List UInt8) : BitVec 128 :=
  let closing := bigEndian 16 (8 * ciphertext.length)
  (blocksOf ciphertext ++ [closing]).foldl
    (fun sum block => product (sum ^^^ BitVec.ofNat 128 (ofBigEndian block)) h) 0

def counterBlock (nonce : List UInt8) (counter : Nat) : Block :=
  Block.ofBytes (nonce ++ bigEndian 4 counter)

/-- The keystream from a counter on, for `count` blocks. -/
def keystream (cipher : Block → Block) (nonce : List UInt8) (counter count : Nat) :
    List UInt8 :=
  match count with
  | 0 => []
  | count + 1 =>
      (cipher (counterBlock nonce counter)).toBytes
        ++ keystream cipher nonce (counter + 1) count

def addStream (cipher : Block → Block) (nonce data : List UInt8) : List UInt8 :=
  List.zipWith (· ^^^ ·) data (keystream cipher nonce 2 ((data.length + 15) / 16))

def tag (cipher : Block → Block) (nonce ciphertext : List UInt8) : List UInt8 :=
  let h := BitVec.ofNat 128 (ofBigEndian (cipher default).toBytes)
  let mask := BitVec.ofNat 128 (ofBigEndian (cipher (counterBlock nonce 1)).toBytes)
  bigEndian 16 (digest h ciphertext ^^^ mask).toNat

def encrypt (cipher : Block → Block) (nonce plaintext : List UInt8) : List UInt8 :=
  let ciphertext := addStream cipher nonce plaintext
  ciphertext ++ tag cipher nonce ciphertext

/-- Nothing unless the last sixteen bytes are the tag of those before. -/
def decrypt? (cipher : Block → Block) (nonce body : List UInt8) : Option (List UInt8) :=
  if body.length < 16 then none
  else
    let ciphertext := body.take (body.length - 16)
    if body.drop (body.length - 16) = tag cipher nonce ciphertext then
      some (addStream cipher nonce ciphertext)
    else none

end SealedColumns.Galois
