import SealedColumns.Decimal.Shortest

/-!
How the digits of a number are set: in positional notation or with an exponent,
with or without a mark that tells it from an integer.
-/

namespace SealedColumns.Decimal

/-- `positional` says for which exponents of the leading digit no exponent is written. -/
structure Layout where
  positional : Int → Bool
  wholeMark : Bool
  plusSign : Bool
  tie : Tie

/-- Number texts are always positional and whole ones bear no mark. -/
def Layout.plain : Layout where
  positional _ := true
  wholeMark := false
  plusSign := false
  tie := .up

/-- Inspected numbers are positional from a ten-thousandth up to 16 digits. -/
def Layout.inspected : Layout where
  positional exponent := -4 ≤ exponent && exponent < 16
  wholeMark := true
  plusSign := false
  tie := .up

/-- Numbers in documents are positional from a hundred-thousandth up to 16 digits,
    and a positive exponent has its sign. -/
def Layout.document : Layout where
  positional exponent := -5 ≤ exponent && exponent < 16
  wholeMark := true
  plusSign := true
  tie := .even

def positionalText (layout : Layout) (digits : String) (exponent : Int) : String :=
  let point := (digits.length : Int) + exponent
  if 0 ≤ exponent then
    digits ++ String.ofList (List.replicate exponent.toNat '0')
      ++ (if layout.wholeMark then ".0" else "")
  else if 0 < point then
    String.ofList (digits.toList.take point.toNat) ++ "."
      ++ String.ofList (digits.toList.drop point.toNat)
  else "0." ++ String.ofList (List.replicate (-point).toNat '0') ++ digits

def exponentText (layout : Layout) (digits : String) (leading : Int) : String :=
  let rest := digits.toList.drop 1
  String.ofList (digits.toList.take 1)
    ++ (if rest.isEmpty then "" else "." ++ String.ofList rest)
    ++ "e"
    ++ (if leading < 0 then "-" else if layout.plusSign then "+" else "")
    ++ Nat.repr leading.natAbs

def text (layout : Layout) (d : Decimal) : String :=
  let digits := Nat.repr d.coefficient
  let leading := (digits.length : Int) + d.exponent - 1
  if layout.positional leading then positionalText layout digits d.exponent
  else exponentText layout digits leading

end SealedColumns.Decimal

namespace SealedColumns.Binary64

def text (layout : Decimal.Layout) (x : Binary64) : String :=
  if x.isNaN then "NaN"
  else
    (if x.negative then "-" else "")
      ++ (if x.isInfinite then "inf" else (Decimal.shortest layout.tie x).text layout)

end SealedColumns.Binary64
