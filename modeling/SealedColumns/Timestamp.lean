/-!
Points in time without a zone. A leap second is second 59 with a thousand million
nanoseconds or more.
-/

namespace SealedColumns

structure Timestamp where
  year : Int
  month : Nat
  day : Nat
  hour : Nat
  minute : Nat
  second : Nat
  nanosecond : Nat
  deriving DecidableEq

namespace Timestamp

def padded (width n : Nat) : String :=
  let digits := Nat.repr n
  String.ofList (List.replicate (width - digits.length) '0') ++ digits

/-- Years of one to four digits have four digits; all others have a sign too. -/
def yearText (year : Int) : String :=
  if 0 ≤ year ∧ year ≤ 9999 then padded 4 year.toNat
  else (if year < 0 then "-" else "+") ++ padded 4 year.natAbs

/-- Nothing, or a point and the fewest of 3, 6 and 9 digits that are exact. -/
def fractionText (nanosecond : Nat) : String :=
  if nanosecond = 0 then ""
  else if nanosecond % 1000000 = 0 then "." ++ padded 3 (nanosecond / 1000000)
  else if nanosecond % 1000 = 0 then "." ++ padded 6 (nanosecond / 1000)
  else "." ++ padded 9 nanosecond

def dateText (time : Timestamp) : String :=
  yearText time.year ++ "-" ++ padded 2 time.month ++ "-" ++ padded 2 time.day

def clockText (time : Timestamp) : String :=
  padded 2 time.hour ++ ":" ++ padded 2 time.minute ++ ":"
    ++ padded 2 (time.second + time.nanosecond / 1000000000)
    ++ fractionText (time.nanosecond % 1000000000)

/-- The text form that is stored and encrypted. -/
def text (time : Timestamp) : String := time.dateText ++ " " ++ time.clockText

def inspect (time : Timestamp) : String := time.dateText ++ "T" ++ time.clockText

end Timestamp

end SealedColumns
