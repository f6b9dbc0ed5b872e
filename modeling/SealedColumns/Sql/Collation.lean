import SealedColumns.Sql.Cell
import SealedColumns.Sql.Name

/-!
How texts are compared: by their bytes, without the case of ASCII letters, or without
the spaces they end in. A column has a collation of its own, and an expression may ask
for one.
-/

namespace SealedColumns.Sql

inductive Collation where
  | binary
  | ignoringCase
  | ignoringPadding
  deriving DecidableEq

namespace Collation

def ofName? (name : String) : Option Collation :=
  if sameName name "BINARY" then some binary
  else if sameName name "NOCASE" then some ignoringCase
  else if sameName name "RTRIM" then some ignoringPadding
  else none

def lowerByte (byte : UInt8) : UInt8 := if 0x41 ≤ byte && byte ≤ 0x5a then byte + 0x20 else byte

def key (collation : Collation) (data : List UInt8) : List UInt8 :=
  match collation with
  | binary => data
  | ignoringCase => data.map lowerByte
  | ignoringPadding => (data.reverse.dropWhile (· == 0x20)).reverse

end Collation

def Cell.collated (collation : Collation) (cell : Cell) : Cell :=
  match cell with
  | .text data => .text (collation.key data)
  | cell => cell

end SealedColumns.Sql
