import LinearProgram.Scalar

/-!
# Numerals

The number that a text writes.  Blanks around a numeral do not count, and a text of blanks only
writes zero.  A decimal numeral may have a sign, a fraction and an exponent; a whole number may also
be written to base two, eight or sixteen, with the letter of the base after a zero and without a
sign.
-/

namespace LinearProgram.Text

/-- Characters that do not count around a numeral. -/
def isBlank (character : Char) : Bool :=
  let code := character.toNat
  (9 ≤ code && code ≤ 13) || (0x2000 ≤ code && code ≤ 0x200a)
    || [0x20, 0xa0, 0x1680, 0x2028, 0x2029, 0x202f, 0x205f, 0x3000, 0xfeff].contains code

/-- The characters of a text without the blanks around them. -/
def trimmed (characters : List Char) : List Char :=
  ((characters.dropWhile isBlank).reverse.dropWhile isBlank).reverse

/-- A number as it is written: infinite, or some digits with a power of ten. -/
inductive Numeral where
  | infinite (negative : Bool)
  | decimal (negative : Bool) (digits : Nat) (exponent : Int)
  deriving DecidableEq, Repr

namespace Numeral

def digit? (base : Nat) (character : Char) : Option Nat :=
  let value :=
    if character.isDigit then character.toNat - '0'.toNat
    else if character.isLower then character.toNat - 'a'.toNat + 10
    else if character.isUpper then character.toNat - 'A'.toNat + 10
    else base
  if value < base then some value else none

/-- The number that digits write; there has to be one digit at least. -/
def natural? (base : Nat) (digits : List Char) : Option Nat :=
  if digits.isEmpty then none
  else digits.foldlM (fun total digit => (digit? base digit).map (total * base + ·)) 0

/-- An exponent with its letter, or none at all. -/
def exponent? : List Char → Option Int
  | [] => some 0
  | letter :: rest =>
    if letter = 'e' || letter = 'E' then
      match rest with
      | '+' :: digits => (natural? 10 digits).map Int.ofNat
      | '-' :: digits => (natural? 10 digits).map (fun value => -Int.ofNat value)
      | digits => (natural? 10 digits).map Int.ofNat
    else none

/-- The fraction after a point, and what follows it. -/
def fraction : List Char → List Char × List Char
  | '.' :: rest => rest.span Char.isDigit
  | rest => ([], rest)

/-- A numeral after its sign. -/
def unsigned? (negative : Bool) (characters : List Char) : Option Numeral :=
  if characters = "Infinity".toList then some (infinite negative)
  else do
    let (whole, rest) := characters.span Char.isDigit
    let (places, rest) := fraction rest
    let digits ← natural? 10 (whole ++ places)
    let exponent ← exponent? rest
    return decimal negative digits (exponent - places.length)

/-- The numeral that a text is, if it is one. -/
def ofText? (text : String) : Option Numeral :=
  match trimmed text.toList with
  | [] => some (decimal false 0 0)
  | '0' :: 'x' :: digits | '0' :: 'X' :: digits =>
    (natural? 16 digits).map (fun value => decimal false value 0)
  | '0' :: 'o' :: digits | '0' :: 'O' :: digits =>
    (natural? 8 digits).map (fun value => decimal false value 0)
  | '0' :: 'b' :: digits | '0' :: 'B' :: digits =>
    (natural? 2 digits).map (fun value => decimal false value 0)
  | '+' :: rest => unsigned? false rest
  | '-' :: rest => unsigned? true rest
  | rest => unsigned? false rest

/-- A power of ten beyond this, and beyond the digits that it shifts, makes a number infinite or
zero for all practical purposes. -/
def exponentLimit : Nat := 5000

variable {α : Type} [Scalar α]

/-- The magnitude of digits with a power of ten. -/
def magnitude (digits : Nat) (exponent : Int) : α :=
  OfScientific.ofScientific digits (exponent < 0)
    (min exponent.natAbs (exponentLimit + digits.log2))

def toScalar : Numeral → α
  | infinite negative => if negative then -Scalar.infinity else Scalar.infinity
  | decimal negative digits exponent =>
    if negative then -magnitude digits exponent else magnitude digits exponent

end Numeral

/-- The number that a text writes, undefined if it is no numeral. -/
def number {α : Type} [Scalar α] (text : String) : α :=
  ((Numeral.ofText? text).map Numeral.toScalar).getD Scalar.undefined

end LinearProgram.Text
