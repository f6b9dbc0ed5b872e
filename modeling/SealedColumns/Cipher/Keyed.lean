import SealedColumns.Cipher
import SealedColumns.Cipher.Galois
import SealedColumns.Text.Blank

/-!
The cipher under a key of 32 bytes. A ciphertext is the base64 text of a nonce of
twelve bytes followed by the authenticated encryption of the plaintext's bytes
under that nonce. White space around a ciphertext or a written key is left out.
The frame is the same over any text form of bytes and any authenticated encryption.
Encryption does not fail: the branch in which what is underneath refuses a plaintext
is left out.
-/

namespace SealedColumns

structure Key where
  bytes : List UInt8
  size : bytes.length = 32
  deriving DecidableEq

structure Nonce where
  bytes : List UInt8
  size : bytes.length = 12
  deriving DecidableEq

namespace Key

def ofBytes (bytes : List UInt8) : Except KeyFault Key :=
  if size : bytes.length = 32 then .ok ⟨bytes, size⟩ else .error (.wrongLength bytes.length)

def ofBase64 (written : String) : Except KeyFault Key :=
  match Base64.decode (Text.bytes (Text.trim written)) with
  | .ok bytes => ofBytes bytes
  | .error fault => .error (.notBase64 fault)

/-- The key written in an environment variable with the given content. -/
def ofVariable (name : String) (content : Option (List UInt8)) : Except KeyFault Key :=
  match content with
  | none => .error (.variable name .missing)
  | some content =>
      match Text.decode? content with
      | none => .error (.variable name (.notText content))
      | some written => ofBase64 written

def blockCipher (key : Key) : Rijndael.Block → Rijndael.Block :=
  let keys := Rijndael.roundKeys (.ofBytes key.bytes) (.ofBytes (key.bytes.drop 16))
  Rijndael.encryptWith keys

end Key

theorem Galois.length_bigEndian (count n : Nat) : (bigEndian count n).length = count := by
  induction count generalizing n with
  | zero => rfl
  | succ count ih => simp [bigEndian, ih]

/-- The nonce of a draw. The first 2 ^ 96 draws have different nonces. -/
def Nonce.ofDraw (draw : Nat) : Nonce :=
  ⟨Galois.bigEndian 12 draw, Galois.length_bigEndian 12 draw⟩

/-- The key of a draw: the encryptions of two numbers under the key of zeros. As
    these differ, so do the keys of the first 2 ^ 127 draws. -/
def Key.ofDraw (draw : Nat) : Key :=
  let zeros := Rijndael.roundKeys default default
  let half (n : Nat) :=
    (Rijndael.encryptWith zeros (.ofBytes (Galois.bigEndian 16 n))).toBytes
  ⟨half (2 * draw) ++ half (2 * draw + 1), rfl⟩

def Key.toBase64 (key : Key) : String := Base64.encodeText key.bytes

/-- A way of writing bytes as text. -/
structure Codec where
  encode : List UInt8 → String
  decode : String → Except Base64.Fault (List UInt8)

/-- Authenticated encryption of bytes, each time under a nonce. -/
structure Authenticated where
  encrypt : List UInt8 → List UInt8 → List UInt8
  decrypt? : List UInt8 → List UInt8 → Option (List UInt8)

namespace Framed

variable (codec : Codec) (aead : Authenticated)

def sealUnder (nonce : Nonce) (plaintext : String) : String :=
  codec.encode (nonce.bytes ++ aead.encrypt nonce.bytes (Text.bytes plaintext))

/-- Opens the bytes of a nonce and what follows it. -/
def openBytes (data : List UInt8) : Except CipherFault String :=
  if data.length < 12 then .error (.malformed .tooShort)
  else
    match aead.decrypt? (data.take 12) (data.drop 12) with
    | none => .error (.failed .unauthentic)
    | some plaintext =>
        match Text.decode plaintext with
        | .ok text => .ok text
        | .error fault => .error (.malformed (.plaintextNotText fault))

def openText (ciphertext : String) : Except CipherFault String :=
  match codec.decode (Text.trim ciphertext) with
  | .error fault => .error (.malformed (.notBase64 fault))
  | .ok data => openBytes aead data

end Framed

def Base64.codec : Codec where
  encode := encodeText
  decode text := decode (Text.bytes text)

def Key.authenticated (key : Key) : Authenticated where
  encrypt := Galois.encrypt key.blockCipher
  decrypt? := Galois.decrypt? key.blockCipher

namespace Keyed

def sealUnder (key : Key) : Nonce → String → String :=
  Framed.sealUnder Base64.codec key.authenticated

def openText (key : Key) : String → Except CipherFault String :=
  Framed.openText Base64.codec key.authenticated

/-- How the cipher shows itself; the key stays hidden. -/
def inspect : String := Text.openRecord "AesGcmCipher" []

def cipher (key : Key) : Cipher where
  name := "keyed"
  encrypt draw plaintext := .ok (sealUnder key (.ofDraw draw) plaintext)
  decrypt := openText key

end Keyed

end SealedColumns
