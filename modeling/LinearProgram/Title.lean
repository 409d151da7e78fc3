import LinearProgram.Index

/-!
# Titles

What something is called may change after it was taken in: variables are renamed, and constraints
and expressions are written anew whenever their text is needed.  A title therefore only says whose
name or text it is.  It becomes a text where the names are known.
-/

namespace LinearProgram

/-- The identity of a model, and the name by which messages call it. -/
structure ModelRef where
  id : Nat
  name : String
  deriving DecidableEq, Repr

/-- Whose name or text something is called by. -/
inductive Title where
  | text (value : String)
  | variableName (model : ModelRef) (index : Index)
  | constraintName (model : ModelRef) (index : Index)
  /-- A constraint with its row. -/
  | constraintText (model : ModelRef) (index : Index)
  | expressionText (number : Nat)
  | append (first second : Title)
  deriving DecidableEq, Repr

/-- How variables, constraints and expressions are called. -/
structure Naming where
  variableName : ModelRef → Index → String
  constraintName : ModelRef → Index → String
  /-- A constraint with its row. -/
  constraintText : ModelRef → Index → String
  expressionText : Nat → String

/-- The naming that calls everything an object. -/
def Naming.nameless : Naming :=
  ⟨fun _ _ => object, fun _ _ => object, fun _ _ => object, fun _ => object⟩
where
  object : String := "[object Object]"

namespace Title

/-- The title of what has none. -/
def unknown : Title := text "undefined"

def write (naming : Naming) : Title → String
  | text value => value
  | variableName model index => naming.variableName model index
  | constraintName model index => naming.constraintName model index
  | constraintText model index => naming.constraintText model index
  | expressionText number => naming.expressionText number
  | append first second => first.write naming ++ second.write naming

/-- The first obstacle to writing a title, where constraints and expressions may have some. -/
def obstacle? {ε : Type} (constraint : ModelRef → Index → Option ε)
    (expression : Nat → Option ε) : Title → Option ε
  | constraintText model index => constraint model index
  | expressionText number => expression number
  | append first second =>
    (first.obstacle? constraint expression).or (second.obstacle? constraint expression)
  | text _ | variableName _ _ | constraintName _ _ => none

/-- Titles with a separator between any two of them. -/
def joined (separator : String) : List Title → Title
  | [] => text ""
  | [title] => title
  | title :: rest => title.append ((text separator).append (joined separator rest))

/-- A title between two texts. -/
def between (opening closing : String) (title : Title) : Title :=
  (text opening).append (title.append (text closing))

theorem write_joined (naming : Naming) (separator : String) (titles : List Title) :
    (joined separator titles).write naming =
      separator.intercalate (titles.map (write naming)) := by
  induction titles with
  | nil => simp [joined, write]
  | cons title rest induction =>
      cases rest with
      | nil => simp [joined]
      | cons next rest =>
          simp only [joined, write, induction, List.map_cons, String.intercalate_cons_cons,
            String.append_assoc]

end Title

end LinearProgram
