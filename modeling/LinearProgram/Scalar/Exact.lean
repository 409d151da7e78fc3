import LinearProgram.Scalar

/-!
# Exact numbers as scalars

Rationals with two infinite numbers, and one outcome for operations without a
result.  Nothing is rounded and zero has no sign; otherwise the arithmetic is
that of machine numbers.
-/

namespace LinearProgram

/-- A rational, an infinite number, or the outcome of an operation without a
result. -/
inductive Exact where
  | finite (value : Rat)
  | infinite (negative : Bool)
  | undefined
  deriving DecidableEq, Repr

namespace Exact

/-- An infinite number times a finite one. -/
def scaled (negative : Bool) (factor : Rat) : Exact :=
  if factor = 0 then undefined else infinite (negative != decide (factor < 0))

protected def add : Exact → Exact → Exact
  | finite first, finite second => finite (first + second)
  | finite _, infinite negative | infinite negative, finite _ => infinite negative
  | infinite first, infinite second =>
    if first = second then infinite first else undefined
  | undefined, _ | _, undefined => undefined

protected def neg : Exact → Exact
  | finite value => finite (-value)
  | infinite negative => infinite (!negative)
  | undefined => undefined

protected def mul : Exact → Exact → Exact
  | finite first, finite second => finite (first * second)
  | finite factor, infinite negative | infinite negative, finite factor =>
    scaled negative factor
  | infinite first, infinite second => infinite (first != second)
  | undefined, _ | _, undefined => undefined

/-- The quotient; dividing by zero leaves an infinite number, or none. -/
protected def div : Exact → Exact → Exact
  | finite first, finite second =>
    if second = 0 then scaled false first else finite (first / second)
  | finite _, infinite _ => finite 0
  | infinite negative, finite divisor =>
    if divisor = 0 then infinite negative else scaled negative divisor
  | infinite _, infinite _ => undefined
  | undefined, _ | _, undefined => undefined

def below : Exact → Exact → Bool
  | finite first, finite second => first < second
  | infinite true, finite _ | infinite true, infinite false => true
  | finite _, infinite false => true
  | _, _ => false

def alike : Exact → Exact → Bool
  | finite first, finite second => first = second
  | infinite first, infinite second => first = second
  | _, _ => false

def atMost (first second : Exact) : Bool := first.below second || first.alike second

def text : Exact → String
  | finite value => toString value
  | infinite negative => if negative then "-Infinity" else "Infinity"
  | undefined => "NaN"

instance : Scalar Exact where
  zero := finite 0
  one := finite 1
  add := Exact.add
  sub first second := first.add second.neg
  mul := Exact.mul
  div := Exact.div
  neg := Exact.neg
  lt first second := first.below second = true
  le first second := first.atMost second = true
  beq := alike
  ofScientific significand negative exponent :=
    finite (OfScientific.ofScientific significand negative exponent)
  decidableLt first second := inferInstanceAs (Decidable (first.below second = true))
  decidableLe first second := inferInstanceAs (Decidable (first.atMost second = true))
  isFinite
    | finite _ => true
    | _ => false
  infinity := infinite false
  rational?
    | finite value => some value
    | _ => none
  text := text

/-- The rational of a finite number. -/
def toRat (number : Exact) : Rat := (Scalar.rational? number).getD 0

/-- A number, read exactly. -/
def ofScalar {α : Type} [Scalar α] (value : α) : Exact :=
  match Scalar.rational? value with
  | some number => finite number
  | none => if Scalar.isUndefined value then undefined else infinite (decide (value < 0))

end Exact

end LinearProgram
