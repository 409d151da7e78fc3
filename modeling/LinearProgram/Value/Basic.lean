import LinearProgram.Column
import LinearProgram.Expression.Basic
import LinearProgram.Row
import LinearProgram.Text.Layout
import LinearProgram.Text.Numeral

/-!
# Loosely typed values

Arguments arrive without a static type: numbers, texts, lists and records next to the
objects of the library.  What an operation accepts, and how it calls a value that it refuses,
is said in modules of their own.
-/

namespace LinearProgram

/-- An argument as a caller may give it. -/
inductive Value (α : Type) [Scalar α] where
  | missing
  | null
  | truth (value : Bool)
  | number (value : α)
  | text (value : String)
  /-- A list or a record has a tag by which it is told from others with the same contents. -/
  | list (items : List (Value α)) (tag : Nat)
  | record (members : List (String × Value α)) (tag : Nat)
  | model (reference : ModelRef)
  | handle (value : Variable)
  /-- An expression with its number, as it is now. -/
  | expression (number : Nat) (value : Expression α)
  | constraint (value : Constraint)
  | column (tag : Nat) (value : Column α)
  | row (tag : Nat) (value : Row α)

namespace Value

variable {α : Type} [Scalar α]

instance : Inhabited (Value α) := ⟨missing⟩

/-- The record without members. -/
def noOptions : Value α := record [] 0

/-- A value to use where none was given. -/
def orElse (value fallback : Value α) : Value α :=
  match value with
  | missing => fallback
  | given => given

/-- A number that may not be known. -/
def known : Option α → Value α
  | some value => number value
  | none => missing

/-- The member of a record, if it states one.  The first of several members of one name counts. -/
def member? (value : Value α) (name : String) : Option (Value α) :=
  match value with
  | record members _ => (members.find? (fun entry => entry.1 == name)).map Prod.snd
  | _ => none

/-- The member of a record; one that is not stated is missing. -/
def member (value : Value α) (name : String) : Value α := (value.member? name).getD missing

/-- Whether two values are the same.  Objects are the same if they are one object, whatever they
hold, and an undefined number is not even the same as itself. -/
def identical : Value α → Value α → Bool
  | missing, missing | null, null => true
  | truth first, truth second => first == second
  | number first, number second => first == second
  | text first, text second => first == second
  | model first, model second => first = second
  | handle first, handle second => first = second
  | constraint first, constraint second => first = second
  | list _ first, list _ second | record _ first, record _ second => first = second
  | expression first _, expression second _ => first = second
  | column first _, column second _ | row first _, row second _ => first = second
  | _, _ => false

mutual

/-- A value as a plain text.  Records and those objects that have no text of their own are all
written alike. -/
def title : Value α → Title
  | missing => .unknown
  | null => .text "null"
  | truth value => .text (if value then "true" else "false")
  | number value => .text (Scalar.text value)
  | text value => .text value
  | list items _ => .joined "," (itemTitles items)
  | handle value => value.participant.title
  | constraint value => .constraintText value.model value.index
  | expression place _ => .expressionText place
  | column _ value => value.title
  | record _ _ | model _ | row _ _ => .text "[object Object]"

/-- The items of a list as plain texts; void items leave a gap. -/
def itemTitles : List (Value α) → List Title
  | [] => []
  | missing :: rest | null :: rest => .text "" :: itemTitles rest
  | item :: rest => item.title :: itemTitles rest

end

/-- A value as a plain text as far as that is known without names. -/
def ownText (value : Value α) : String := value.title.write .nameless

/-- The number for which a value counts. -/
def amount : Value α → α
  | null => 0
  | truth value => if value then 1 else 0
  | number value => value
  | text value => Text.number value
  | list items tag => Text.number (list items tag).ownText
  | _ => Scalar.undefined

/-- A number of items. -/
def count (number : Nat) : Value α := .number (Scalar.ofNat number)

/-- What a value states as its length.  That of a text is the number of its units. -/
def length (value : Value α) : Value α :=
  match value with
  | list items _ => count items.length
  | text value => count (Text.units value)
  | other => other.member "length"

/-- What a value states as its size. -/
def size (value : Value α) : Value α :=
  match value with
  | expression _ value => count value.size
  | column _ value => count value.size
  | row _ value => count value.size
  | other => other.member "size"

/-- What a value states as its constant. -/
def constant : Value α → Value α
  | expression _ value => .number value.constant
  | row _ value => .number value.constant
  | other => other.member "constant"

/-- The item of a value at a position.  Those of a text are its units. -/
def item (value : Value α) (position : Nat) : Value α :=
  match value with
  | list items _ => items[position]?.getD missing
  | text value =>
    ((Text.unitChars value)[position]?.map (fun char => text (String.singleton char))).getD missing
  | other => other.member (toString position)

/-- The items of a list, or the characters of a text. -/
def items : Value α → List (Value α)
  | list items _ => items
  | text value => value.toList.map (fun char => text (String.singleton char))
  | _ => []

/-- Whether a value is an object of the library. -/
def isObject : Value α → Bool
  | model _ | handle _ | expression _ _ | constraint _ | column _ _ | row _ _ => true
  | _ => false

/-- Values that count as absent where a type is looked up. -/
def isVoid : Value α → Bool
  | missing | null | truth false => true
  | number value => value == 0 || Scalar.isUndefined value
  | text value => value == ""
  | _ => false

/-- The type of a value as options name it: an undefined number is of a type of its own, and every
object is just an object. -/
def optionType : Value α → String
  | missing => "undefined"
  | null => "null"
  | truth _ => "boolean"
  | number value => if Scalar.isUndefined value then "nan" else "number"
  | text _ => "string"
  | list _ _ => "array"
  | _ => "object"

end Value

end LinearProgram
