/-!
# The fewest digits that read back

A finite double is a natural significand times a power of two.  Everything that is printed about a
double is computed from this form with exact natural arithmetic; the sign is handled by the caller.

The real numbers that round to a double form an interval around it: from half way to the
neighbour below to half way to the neighbour above, with its ends exactly when the
significand is even.  Of the decimals in that interval the ones with the fewest digits are
wanted, and of those the nearest.

The search walks through ever finer grids of powers of ten.  On each grid only the two
neighbours of the value can be nearest, so both are tested and the first grid with a hit
decides.  A tie between two hits goes to the even one.  All comparisons are between natural
numbers.
-/

namespace LinearProgram.Decimal

/-- A finite non-negative value, significand times a power of two. -/
structure Binary where
  significand : Nat
  exponent : Int
  /-- The neighbour below is only half as far away as the neighbour above. -/
  narrowBelow : Bool
  deriving DecidableEq, Repr

namespace Binary

/-- The magnitude of the double with these bits; its sign bit is ignored, and it has to be
finite. -/
def ofBits (bits : UInt64) : Binary :=
  let exponent := ((bits >>> 52) &&& 0x7FF).toNat
  let fraction := (bits &&& 0xFFFFFFFFFFFFF).toNat
  if exponent = 0 then ⟨fraction, -1074, false⟩
  else ⟨0x10000000000000 + fraction, (exponent : Int) - 1075, fraction = 0 && exponent > 1⟩

def toRat (value : Binary) : Rat :=
  mkRat (value.significand * Nat.pow 2 value.exponent.toNat) (Nat.pow 2 (-value.exponent).toNat)

end Binary

/-- Decimal digits behind the point, times a power of ten: `0.digits` times ten to the `point`. -/
structure Digits where
  digits : List Char
  point : Int
  deriving DecidableEq, Repr

namespace Digits

/-- A natural number of units of a power of ten, without trailing zeros. -/
def ofUnits (count : Nat) (unit : Int) : Digits :=
  let written := Nat.toDigits 10 count
  ⟨(written.reverse.dropWhile (fun digit => digit == '0')).reverse, unit + written.length⟩

end Digits

namespace Binary

/-- The number of quarter steps of the value: its ends lie between whole significands. -/
def quarters (value : Binary) : Nat := 4 * value.significand

/-- Quarter steps of the lower end of the rounding interval. -/
def lowerQuarters (value : Binary) : Nat :=
  if value.narrowBelow then value.quarters - 1 else value.quarters - 2

/-- Quarter steps of the upper end of the rounding interval. -/
def upperQuarters (value : Binary) : Nat := value.quarters + 2

/-- A quarter step, as a fraction of the grid with this power of ten: numerator and denominator. -/
def quarterOn (value : Binary) (grid : Int) : Nat × Nat :=
  let exponent := value.exponent - 2
  (Nat.pow 2 exponent.toNat * Nat.pow 10 (-grid).toNat,
    Nat.pow 2 (-exponent).toNat * Nat.pow 10 grid.toNat)

/-- Whether so many grid units round to the value. -/
def readsBack (value : Binary) (grid : Int) (count : Nat) : Bool :=
  let (numerator, denominator) := value.quarterOn grid
  let lower := value.lowerQuarters * numerator
  let upper := value.upperQuarters * numerator
  let candidate := count * denominator
  if value.significand % 2 = 0 then decide (lower ≤ candidate ∧ candidate ≤ upper)
  else decide (lower < candidate ∧ candidate < upper)

/-- The nearest number of grid units that rounds to the value, if any does. -/
def nearestOn? (value : Binary) (grid : Int) : Option Nat :=
  let (numerator, denominator) := value.quarterOn grid
  let scaled := value.quarters * numerator
  let below := scaled / denominator
  match value.readsBack grid below, value.readsBack grid (below + 1) with
  | false, false => none
  | true, false => some below
  | false, true => some (below + 1)
  | true, true =>
    match compare (2 * scaled) ((2 * below + 1) * denominator) with
    | .lt => some below
    | .gt => some (below + 1)
    | .eq => some (if below % 2 = 0 then below else below + 1)

/-- The number of decimal digits of a natural number. -/
def digitCount (number : Nat) : Nat := (Nat.toDigits 10 number).length

/-- The least power of ten above a positive value. -/
def point (value : Binary) : Int :=
  let (numerator, denominator) := value.quarterOn 0
  let scaled := value.quarters * numerator
  if denominator ≤ scaled then digitCount (scaled / denominator)
  else 1 - (digitCount ((denominator - 1) / scaled) : Int)

def exactDigits (value : Binary) : Digits :=
  if 0 ≤ value.exponent then Digits.ofUnits (value.significand * Nat.pow 2 value.exponent.toNat) 0
  else Digits.ofUnits (value.significand * Nat.pow 5 (-value.exponent).toNat) value.exponent

/-- Try so many grids, from this one on to finer ones. -/
def shortestFrom (value : Binary) : Nat → Int → Digits
  | 0, _ => value.exactDigits
  | grids + 1, grid =>
    match value.nearestOn? grid with
    | some count => Digits.ofUnits count grid
    | none => shortestFrom value grids (grid - 1)

/-- The fewest digits that read back as a positive value.  Seventeen always suffice. -/
def shortest (value : Binary) : Digits := value.shortestFrom 17 (value.point - 1)

end Binary

end LinearProgram.Decimal
