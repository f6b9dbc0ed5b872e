import SealedColumns.Error
import SealedColumns.Row.Shape
import SealedColumns.Text.Blank
import SealedColumns.Trace

/-!
Decrypting cells after they are fetched. Each column of a list is looked up by
name; its cell, text or bytes that are UTF-8, is replaced by the plaintext without
its padding. Absent and blank cells stay. The first failure ends the pass and
leaves what is done so far.
-/

namespace SealedColumns

/-- What a cell holds for the cipher. -/
def Value.ciphertext : Value → Except CiphertextFault String
  | .text s => .ok s
  | .blob data => (Text.decode data).mapError .binary
  | other => .error (.notText other)

/-- What a pass leaves behind, whether it went through, and what it did. -/
structure Opening (row : Type) where
  row : row
  result : Except Error Unit
  trace : Trace

def openCells {row : Type} [Cells row] (cipher : Option Cipher) :
    List String → row → Opening row
  | [], cells => ⟨cells, .ok (), []⟩
  | column :: rest, cells =>
      match Cells.cell? cells column with
      | none => openCells cipher rest cells
      | some value =>
          if value.isBlank then openCells cipher rest cells
          else
            match cipher with
            | none => ⟨cells, .error (.configuration (.noCipher column)), []⟩
            | some cipher =>
                match value.ciphertext with
                | .error fault => ⟨cells, .error (.decryption column (.malformed fault)), []⟩
                | .ok ciphertext =>
                    match cipher.decrypt ciphertext with
                    | .error cause =>
                        ⟨cells, .error (.decryption column cause),
                          [.cipher (.decrypt ciphertext)]⟩
                    | .ok plaintext =>
                        let later := openCells cipher rest
                          (Cells.put cells column (.text (Text.withoutPadding plaintext)))
                        { later with
                          trace := .cipher (.decrypt ciphertext)
                            :: .event (.decrypted column) :: later.trace }

def openRows {row : Type} [Cells row] (cipher : Option Cipher) (columns : List String) :
    List row → Opening (List row)
  | [] => ⟨[], .ok (), []⟩
  | first :: rest =>
      let opened := openCells cipher columns first
      match opened.result with
      | .error cause => ⟨opened.row :: rest, .error cause, opened.trace⟩
      | .ok () =>
          let later := openRows cipher columns rest
          ⟨opened.row :: later.row, later.result, opened.trace ++ later.trace⟩

def openGroups (cipher : Option Cipher) (columns : List String) :
    List KeyedRows → Opening (List KeyedRows)
  | [] => ⟨[], .ok (), []⟩
  | group :: rest =>
      let opened := openRows cipher columns group.rows
      match opened.result with
      | .error cause =>
          ⟨{ group with rows := opened.row } :: rest, .error cause, opened.trace⟩
      | .ok () =>
          let later := openGroups cipher columns rest
          ⟨{ group with rows := opened.row } :: later.row, later.result,
            opened.trace ++ later.trace⟩

/-- Decrypts all rows, group after group. The keys of groups stay as they are. -/
def openRowSet (cipher : Option Cipher) (columns : List String) (set : RowSet) :
    Opening RowSet :=
  match set with
  | .flat rows =>
      let opened := openRows cipher columns rows
      ⟨.flat opened.row, opened.result, opened.trace⟩
  | .grouped groups =>
      let opened := openGroups cipher columns groups
      ⟨.grouped opened.row, opened.result, opened.trace⟩

end SealedColumns
