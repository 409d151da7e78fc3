/-!
# Scalars

Coefficients, bounds and solution values are written once over a class of numbers, so that
the same definitions run on machine doubles and can be read over exact numbers.  The class
asks for arithmetic and comparisons only.  It has no laws: a law that a statement needs is
proved for the numbers at hand.

Everything below the class is derived from it.  The choices at zero and at undefined numbers
are made here, once, because several rules of the library meet there: clipping of bounds,
extreme activities of rows and pruning of small coefficients.
-/

namespace LinearProgram

/-- Numbers of a linear program, with a value above all others and a text for messages. -/
class Scalar (α : Type) extends
    Add α, Sub α, Mul α, Div α, Neg α, Zero α, One α, LT α, LE α, BEq α, OfScientific α where
  decidableLt (first second : α) : Decidable (first < second)
  decidableLe (first second : α) : Decidable (first ≤ second)
  /-- Neither infinite nor undefined. -/
  isFinite : α → Bool
  /-- The upper bound of an unbounded variable. -/
  infinity : α
  /-- The exact value of a finite number. -/
  rational? : α → Option Rat
  /-- How a message writes the number; the sign of zero is not shown. -/
  text : α → String

instance decidableLtOfScalar {α : Type} [Scalar α] : DecidableLT α := Scalar.decidableLt

instance decidableLeOfScalar {α : Type} [Scalar α] : DecidableLE α := Scalar.decidableLe

namespace Scalar

variable {α : Type} [Scalar α]

def ofNat (number : Nat) : α := OfScientific.ofScientific number false 0

/-- A rational as a scalar: by its decimal digits if it has finitely many because its denominator
is a power of two, as a quotient otherwise. -/
def ofRat (number : Rat) : α :=
  let places := number.den.log2
  let magnitude : α :=
    if number.den = Nat.pow 2 places then
      OfScientific.ofScientific (number.num.natAbs * Nat.pow 5 places) true places
    else ofNat number.num.natAbs / ofNat number.den
  if number.num < 0 then -magnitude else magnitude

/-- The natural number that a scalar is, if it is one. -/
def natural? (value : α) : Option Nat := do
  let number ← rational? value
  if number.den = 1 ∧ 0 ≤ number.num then some number.num.toNat else none

/-- The outcome of an operation without a defined result. -/
def undefined : α := 0 / 0

/-- An undefined number is the only one that differs from itself. -/
def isUndefined (value : α) : Bool := !(value == value)

/-- The larger of two numbers.  Undefined if either is; positive zero is above negative zero, which
is why two zeros are added. -/
def larger (first second : α) : α :=
  if first < second then second
  else if second < first then first
  else if first == second then (if first == 0 then first + second else first)
  else first + second

/-- The smaller of two numbers, with negative zero below positive zero. -/
def smaller (first second : α) : α := -larger (-first) (-second)

def magnitude (value : α) : α := larger value (-value)

/-- Coefficients up to this magnitude count as zero. -/
def epsilon : α := 1e-12

/-- A row has to miss its right hand side by more than this to be violated for certain. -/
def tolerance : α := 1e-9

/-- Whether a coefficient is too small to be stored. -/
def nearZero (value : α) : Bool :=
  if value < 0 then decide (-value ≤ epsilon) else decide (value ≤ epsilon)

def isNegativeZero (value : α) : Bool := value == 0 && decide (1 / value < 0)

/-- The text that also shows the sign of zero. -/
def signedText (value : α) : String := if isNegativeZero value then "-0" else text value

end Scalar

end LinearProgram
