import LinearProgram.Decimal.Notation
import LinearProgram.Scalar

/-!
# Doubles as scalars

Machine doubles with their own arithmetic.  A number is written with the fewest digits that
read back, positionally from a millionth up to, but not including, a sextillion.
-/

namespace LinearProgram

/-- Numbers have at most twenty-one digits before the point and five zeros after it. -/
def doubleNotation : Decimal.Notation := ⟨21, 5⟩

/-- The text of a double.  Both zeros are written alike. -/
def doubleText (value : Float) : String :=
  if value.isNaN then "NaN"
  else if value == 0 then "0"
  else
    let body :=
      if value.isInf then "Infinity"
      else doubleNotation.write (Decimal.Binary.ofBits value.toBits).shortest
    if value < 0 then "-" ++ body else body

/-- The exact value of a finite double. -/
def doubleRational? (value : Float) : Option Rat :=
  if value.isFinite then
    let magnitude := (Decimal.Binary.ofBits value.toBits).toRat
    some (if value < 0 then -magnitude else magnitude)
  else none

instance : Scalar Float where
  zero := 0
  one := 1
  decidableLt := fun first second => inferInstanceAs (Decidable (first < second))
  decidableLe := fun first second => inferInstanceAs (Decidable (first ≤ second))
  isFinite := Float.isFinite
  infinity := 1 / 0
  rational? := doubleRational?
  text := doubleText

end LinearProgram
