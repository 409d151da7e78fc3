import LinearProgram.Text.Layout
import LinearProgram.Value.Basic

/-!
# The written form of values

A message that refuses a relation or a kind of variable shows the value that was given
instead.  Numbers, texts, lists and records are written with all that they hold.  An object
of the library is written with its own numbers and texts.
-/

namespace LinearProgram.Value

variable {α : Type} [Scalar α]

/-- The written form of a number; numbers that are not finite are written as null. -/
def writtenNumber (value : α) : String :=
  if Scalar.isFinite value then Scalar.text value else "null"

def braced (members : List (String × String)) : String :=
  "\x7b" ++ ",".intercalate (members.map (fun entry => Text.quoted entry.1 ++ ":" ++ entry.2))
    ++ "\x7d"

/-- Members as they are written: those named by numbers first, in the order of their numbers. -/
def arranged (members : List (String × String)) : List (String × String) :=
  let (numbered, named) := members.partition (fun entry => (numeral? entry.1).isSome)
  numbered.mergeSort (fun first second => (numeral? first.1).getD 0 ≤ (numeral? second.1).getD 0)
    ++ named

def bracketed (items : List String) : String := "[" ++ ",".intercalate items ++ "]"

mutual

/-- The written form of a value, if it has one; a missing value has none.  Objects of the library
show their own numbers, but none of their tables. -/
def written? : Value α → Option String
  | missing => none
  | null => some "null"
  | truth value => some (if value then "true" else "false")
  | number value => some (writtenNumber value)
  | text value => some (Text.quoted value)
  | list items _ => some (bracketed (writtenItems items))
  | record members _ => some (braced (arranged (writtenMembers members)))
  | expression _ value =>
    some (braced [("terms", braced []), ("constant", writtenNumber value.constant),
      ("relation", Text.quoted value.relation.mark)])
  | row _ value => some (braced [("constant", writtenNumber value.constant), ("cells", braced [])])
  | column _ value =>
    some (braced
      [("constrs", bracketed (value.entries.map (fun entry => entry.1.written))),
        ("coeffs", bracketed (value.entries.map (fun entry => writtenNumber entry.2)))])
  | model _ | handle _ | constraint _ => some (braced [])

/-- Items that have no written form are written as null. -/
def writtenItems : List (Value α) → List String
  | [] => []
  | item :: rest => (written? item).getD "null" :: writtenItems rest

/-- Members that have no written form are left out. -/
def writtenMembers : List (String × Value α) → List (String × String)
  | [] => []
  | (name, value) :: rest =>
    match written? value with
    | some shown => (name, shown) :: writtenMembers rest
    | none => writtenMembers rest

end

/-- The written form of a value as messages show it. -/
def shown (value : Value α) : String := value.written?.getD "undefined"

end LinearProgram.Value
