import SealedColumns.Cipher.Base64
import SealedColumns.Value

/-!
The cipher of encrypted columns, and what can go wrong with one. Encryption may
be randomised: it takes the number of a draw, which is used once, and may give
another ciphertext for another draw. Decryption is determined by the ciphertext.
-/

namespace SealedColumns

inductive VariableFault where
  | missing
  | notText (content : List UInt8)
  deriving DecidableEq

def VariableFault.message : VariableFault → String
  | .missing => "environment variable not found"
  | .notText content =>
      "environment variable was not valid unicode: " ++ Text.quotedBytes content

inductive KeyFault where
  | notBase64 (fault : Base64.Fault)
  | wrongLength (bytes : Nat)
  | variable (name : String) (fault : VariableFault)
  | refused (reason : String)
  deriving DecidableEq

def KeyFault.message : KeyFault → String
  | .notBase64 fault => "key is not valid base64: " ++ fault.message
  | .wrongLength bytes => s!"key must be exactly 32 bytes, got {bytes} bytes"
  | .variable name fault => name ++ ": " ++ fault.message
  | .refused reason => reason

inductive CiphertextFault where
  | notBase64 (fault : Base64.Fault)
  | tooShort
  | plaintextNotText (fault : Text.Utf8Fault)
  | binary (fault : Text.Utf8Fault)
  | notText (found : Value)
  | refused (reason : String)

def CiphertextFault.message : CiphertextFault → String
  | .notBase64 fault => "not valid base64: " ++ fault.message
  | .tooShort => "ciphertext too short"
  | .plaintextNotText fault => "plaintext is not UTF-8: " ++ fault.message
  | .binary fault => "binary value is not UTF-8: " ++ fault.message
  | .notText found => "expected text ciphertext, found " ++ found.inspect
  | .refused reason => reason

inductive OperationFault where
  | unauthentic
  | refused (reason : String)
  deriving DecidableEq

def OperationFault.message : OperationFault → String
  | .unauthentic => "decryption failed: aead::Error"
  | .refused reason => reason

inductive CipherFault where
  | invalidKey (fault : KeyFault)
  | malformed (fault : CiphertextFault)
  | failed (fault : OperationFault)

def CipherFault.message : CipherFault → String
  | .invalidKey fault => "invalid key: " ++ fault.message
  | .malformed fault => "malformed ciphertext: " ++ fault.message
  | .failed fault => "cipher operation failed: " ++ fault.message

structure Cipher where
  name : String
  encrypt : Nat → String → Except CipherFault String
  decrypt : String → Except CipherFault String

end SealedColumns
