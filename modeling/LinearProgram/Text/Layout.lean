/-!
# The layout of texts

Lengths of texts are counted in 16-bit units, and texts are compared unit by unit.  A character
outside the basic plane has two units.

A sequence of items is written in one line until the line grows past a width; then it is
broken and a new line starts.  The break comes after the item that made the line too long,
so a line holds at least one item, and a break may end the text.

Inside messages and written values, a text stands in quotation marks.  The quotation mark, the
backslash and the control characters are then written as escapes; every other character stands for
itself.
-/

namespace LinearProgram.Text

section Units

/-- The 16-bit units of a character. -/
def unitsOfChar (character : Char) : List Nat :=
  let code := character.toNat
  if code < 0x10000 then [code]
  else [0xd800 + (code - 0x10000) / 0x400, 0xdc00 + (code - 0x10000) % 0x400]

/-- The number of 16-bit units of a text. -/
def units (text : String) : Nat := (text.toList.flatMap unitsOfChar).length

/-- For each unit of a text, the character to which it belongs. -/
def unitChars (text : String) : List Char :=
  text.toList.flatMap (fun char => (unitsOfChar char).map (fun _ => char))

/-- Whether a text comes before another one or is the same. -/
def atMost (first second : String) : Bool :=
  !decide (second.toList.flatMap unitsOfChar < first.toList.flatMap unitsOfChar)

end Units

section Lines

/-- The break between two lines. -/
def lineBreak : String := "\n\t"

/-- Follow each item by a break as soon as the line, which already holds `used` units, has
grown past the width. -/
def wrapFrom (width used : Nat) : List String → List String
  | [] => []
  | item :: rest =>
    let grown := used + units item
    if width < grown then (item ++ lineBreak) :: wrapFrom width 0 rest
    else item :: wrapFrom width grown rest

/-- The items as one text, broken greedily at the width. -/
def wrap (width : Nat) (items : List String) : String := String.join (wrapFrom width 0 items)

end Lines

section Quotes

/-- A hexadecimal digit of a number below sixteen. -/
def hexDigit (number : Nat) : Char := Nat.digitChar (number % 16)

/-- The escape of a character, if it may not stand for itself. -/
def escape? (character : Char) : Option (List Char) :=
  match character with
  | '"' => some ['\\', '"']
  | '\\' => some ['\\', '\\']
  | '\x08' => some ['\\', 'b']
  | '\x0c' => some ['\\', 'f']
  | '\n' => some ['\\', 'n']
  | '\r' => some ['\\', 'r']
  | '\t' => some ['\\', 't']
  | other =>
    if other.toNat < 32 then
      some ['\\', 'u', '0', '0', hexDigit (other.toNat / 16), hexDigit other.toNat]
    else none

/-- The characters between the quotation marks. -/
def escaped : List Char → List Char
  | [] => []
  | character :: rest => (escape? character).getD [character] ++ escaped rest

def quoted (text : String) : String :=
  String.ofList ('"' :: escaped text.toList ++ ['"'])

end Quotes

end LinearProgram.Text
