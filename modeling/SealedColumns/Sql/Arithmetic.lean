import SealedColumns.Sql.Affinity
import SealedColumns.Sql.Expression

/-!
Arithmetic on cells. Integers are calculated within 64 bits and become real numbers
where they leave them; null makes the result null, as does a result that is no number.
-/

namespace SealedColumns.Sql.Cell

def ofReal (x : Binary64) : Cell := (real x).stored

def fits (n : Int) : Bool := -(Int.pow 2 63) ≤ n && n < Int.pow 2 63

def ofInt? (n : Int) : Option Cell := if fits n then some (integer (Int64.ofInt n)) else none

/-- The result over integers, none where real numbers have to take over. -/
def integerResult? (calculation : Calculation) (n m : Int) : Option Cell :=
  match calculation with
  | .add => ofInt? (n + m)
  | .subtract => ofInt? (n - m)
  | .multiply => ofInt? (n * m)
  | .divide => if m = 0 then some null else ofInt? (n.tdiv m)
  | .remainder => if m = 0 then some null else ofInt? (n.tmod m)
  | _ => none

def realResult (calculation : Calculation) (a b : Cell) : Cell :=
  match calculation with
  | .add => ofReal (a.toReal.add b.toReal)
  | .subtract => ofReal (a.toReal.sub b.toReal)
  | .multiply => ofReal (a.toReal.product b.toReal)
  | .divide => if b.toReal.isZero then null else ofReal (a.toReal.quotientBy b.toReal)
  | .remainder =>
      let m := b.toInteger.toInt
      if m = 0 then null else ofReal (.ofInt (a.toInteger.toInt.tmod m))
  | _ => null

def arithmetic (calculation : Calculation) (a b : Cell) : Cell :=
  match a.operand, b.operand with
  | null, _ | _, null => null
  | integer n, integer m =>
      (integerResult? calculation n.toInt m.toInt).getD (realResult calculation a b)
  | _, _ => realResult calculation a b

/-- A shift by a negative count goes the other way. Beyond 64 places only the sign is left. -/
def shifted (left : Bool) (n count : Int64) : Int64 :=
  let goesLeft := left == (0 ≤ count)
  let places := count.toInt.natAbs
  if goesLeft then if 64 ≤ places then 0 else Int64.ofInt (n.toInt * Int.pow 2 places)
  else if 64 ≤ places then if n < 0 then -1 else 0
  else Int64.ofInt (n.toInt / Int.pow 2 places)

def bitwise (calculation : Calculation) (n m : Int64) : Cell :=
  match calculation with
  | .bitAnd => integer (n &&& m)
  | .bitOr => integer (n ||| m)
  | .shiftLeft => integer (shifted true n m)
  | .shiftRight => integer (shifted false n m)
  | _ => null

def joined (a b : Cell) : Cell :=
  text ((a.towardsText.bytes?.getD []) ++ (b.towardsText.bytes?.getD []))

def calculate (calculation : Calculation) (a b : Cell) : Cell :=
  match a, b with
  | null, _ | _, null => null
  | a, b =>
      match calculation with
      | .add | .subtract | .multiply | .divide | .remainder => arithmetic calculation a b
      | .concatenate => joined a b
      | .bitAnd | .bitOr | .shiftLeft | .shiftRight =>
          bitwise calculation a.toInteger b.toInteger

/-- Null is neither true nor false. -/
def negated : Option Bool → Option Bool := Option.map not

def conjoined : Option Bool → Option Bool → Option Bool
  | some false, _ | _, some false => some false
  | some true, some true => some true
  | _, _ => none

def disjoined (a b : Option Bool) : Option Bool := negated (conjoined (negated a) (negated b))

def signedBy (sign : Sign) (cell : Cell) : Cell :=
  match sign with
  | .not => ofTruth (negated cell.truth?)
  | .minus => calculate .subtract (integer 0) cell
  | .plus => cell
  | .complement =>
      match cell with
      | null => null
      | cell => integer (~~~cell.toInteger)

def relates (relation : Relation) (order : Ordering) : Bool :=
  match relation with
  | .equal => order == .eq
  | .unequal => order != .eq
  | .less => order == .lt
  | .atMost => order != .gt
  | .greater => order == .gt
  | .atLeast => order != .lt

/-- A comparison with null is neither true nor false. -/
def compared (relation : Relation) (affinity : Affinity) (collation : Collation) (a b : Cell) :
    Cell :=
  match a, b with
  | null, _ | _, null => null
  | a, b => ofBool (relates relation (orderUnder affinity collation a b))

/-- Whether two cells are the same, as null is with null. -/
def isSame (affinity : Affinity) (collation : Collation) (a b : Cell) : Bool :=
  orderUnder affinity collation a b == .eq

end SealedColumns.Sql.Cell
