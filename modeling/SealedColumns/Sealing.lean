import SealedColumns.Error
import SealedColumns.Placeholder.Expansion
import SealedColumns.Trace

/-!
Encrypting parameters before they are bound. For each configured column the keys
of its own name and of the names generated for it are visited, each key once; the
value under a visited key is replaced by the ciphertext of its text form. Blank
values stay. The first failure ends the pass and leaves what is done so far.
-/

namespace SealedColumns

open Placeholder (Expansions)

/-- A key to visit, and the configured column through which it is reached. -/
structure Target where
  key : String
  column : String
  deriving DecidableEq

def targetsOfName (column name : String) : List Target :=
  [⟨name, column⟩, ⟨sigilKey name, column⟩]

def targetsOfColumn (table : Expansions) (column : String) : List Target :=
  (column :: table.generated column).flatMap (targetsOfName column)

/-- Leaves out targets whose key came before. -/
def firstVisits : List Target → List Target
  | [] => []
  | target :: rest =>
      target :: (firstVisits rest).filter (fun later => later.key != target.key)

def targetsOf (columns : List String) (table : Expansions) : List Target :=
  firstVisits (columns.flatMap (targetsOfColumn table))

/-- The parameters a pass leaves behind, the number of values it encrypted or its
    failure, what it did, and the number of the next draw. -/
structure Sealing where
  params : Parameters
  result : Except Error Nat
  trace : Trace
  draws : Nat

/-- The pass seen from a value encrypted before it. -/
def Sealing.after (later : Sealing) (plaintext : String) : Sealing :=
  { later with
    result := later.result.map (· + 1)
    trace := .cipher (.encrypt plaintext) :: later.trace }

def sealTargets (cipher : Cipher) : List Target → Parameters → Nat → Sealing
  | [], params, draws => ⟨params, .ok 0, [], draws⟩
  | target :: rest, params, draws =>
      match params.get? target.key with
      | none => sealTargets cipher rest params draws
      | some value =>
          if value.isBlank then sealTargets cipher rest params draws
          else
            match value.toText? with
            | none => ⟨params, .error (.parameter (.binary target.key)), [], draws⟩
            | some plaintext =>
                match cipher.encrypt draws plaintext with
                | .error cause =>
                    ⟨params, .error (.encryption target.column cause),
                      [.cipher (.encrypt plaintext)], draws + 1⟩
                | .ok ciphertext =>
                    (sealTargets cipher rest (params.insert target.key (.text ciphertext))
                      (draws + 1)).after plaintext

/-- Without a cipher nothing is encrypted. -/
def sealParameters (params : Parameters) (columns : List String) (table : Expansions)
    (cipher : Option Cipher) (draws : Nat) : Sealing :=
  match cipher with
  | none => ⟨params, .ok 0, [], draws⟩
  | some cipher => sealTargets cipher (targetsOf columns table) params draws

end SealedColumns
