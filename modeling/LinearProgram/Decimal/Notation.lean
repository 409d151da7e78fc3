import LinearProgram.Decimal.Shortest

/-!
# Layout of decimal digits

Digits are written positionally while they stay readable and with a power of ten otherwise.
Where the change happens is one record, so that the layout itself knows no constants.
-/

namespace LinearProgram.Decimal

/-- Where positional notation ends. -/
structure Notation where
  /-- The most digits before the decimal point. -/
  wholeDigits : Nat
  /-- The most zeros between the decimal point and the first digit. -/
  leadingZeros : Nat

/-- The sign and digits of a whole number, the sign always written. -/
def signedWhole (number : Int) : String :=
  (if number < 0 then "-" else "+") ++ toString number.natAbs

/-- Lay out digits: positionally within the limits, otherwise with one digit before the point and an
exponent with its sign. -/
def Notation.write (limits : Notation) (value : Digits) : String :=
  let count := value.digits.length
  if (count : Int) ≤ value.point ∧ value.point ≤ limits.wholeDigits then
    String.ofList (value.digits ++ List.replicate (value.point - count).toNat '0')
  else if 0 < value.point ∧ value.point ≤ limits.wholeDigits then
    let whole := value.point.toNat
    String.ofList (value.digits.take whole ++ '.' :: value.digits.drop whole)
  else if -(limits.leadingZeros : Int) ≤ value.point ∧ value.point ≤ 0 then
    String.ofList ('0' :: '.' :: List.replicate (-value.point).toNat '0' ++ value.digits)
  else
    let mantissa :=
      match value.digits with
      | [] => []
      | [single] => [single]
      | leading :: rest => leading :: '.' :: rest
    String.ofList mantissa ++ "e" ++ signedWhole (value.point - 1)

end LinearProgram.Decimal
