import LinearProgram.Expression.Edit
import LinearProgram.Row
import LinearProgram.Value.Basic

/-!
# What a model stores

Variables and constraints are found by name, so no two may share one.  A name that is taken
is continued by the least number that makes it free; a name that was not given is replaced
by one made from the position.

A model keeps the kind of each variable.  A caller who writes to the tables directly can leave
anything in the place of a kind.  It is kept as it was given, but it is none of the kinds for which
the rules of a model ask.

Expressions are kept as rows: terms by index, without handles.  Reading a row back gives an
expression over the handles that the model keeps.  That can fail, because a row checks nothing: an
expression has finite numbers only, and there has to be a handle for every cell.
-/

namespace LinearProgram

/-- The position that holds each name. -/
abbrev NameRegistry := OrderedMap String Nat

namespace NameRegistry

/-- A name continued by a number. -/
def numbered (base : String) (number : Nat) : String := base ++ "_" ++ toString number

/-- The first free continuation from a number on, after so many attempts at most. -/
def continueFrom (names : NameRegistry) (base : String) : Nat → Nat → String
  | 0, number => numbered base number
  | attempts + 1, number =>
    if names.contains (numbered base number) then continueFrom names base attempts (number + 1)
    else numbered base number

/-- A free name: the name itself if possible, its first free continuation otherwise.  As
many attempts as there are names always suffice. -/
def unique (names : NameRegistry) (name fallback : String) : String :=
  let base := if name = "" then fallback else name
  if names.contains base then names.continueFrom base names.size 1 else base

end NameRegistry

/-- A kind of variable, or what was given in its place. -/
inductive StoredKind (α : Type) [Scalar α] where
  | listed (kind : VariableKind)
  | other (given : Value α)

namespace StoredKind

variable {α : Type} [Scalar α]

/-- The kind that a value names, or the value itself. -/
def ofValue : Value α → StoredKind α
  | .text code =>
    match VariableKind.ofCode? code with
    | some kind => listed kind
    | none => other (.text code)
  | given => other given

/-- The value by which a kind was given. -/
def toValue : StoredKind α → Value α
  | listed kind => .text kind.code
  | other given => given

theorem toValue_ofValue (given : Value α) : (ofValue given).toValue = given := by
  cases given with
  | text code =>
      simp only [ofValue]
      cases found : VariableKind.ofCode? code with
      | none => rfl
      | some kind =>
          have named : kind.code = code := by simpa using List.find?_some found
          simp [toValue, named]
  | missing => rfl
  | null => rfl
  | truth value => rfl
  | number value => rfl
  | list items tag => rfl
  | record members tag => rfl
  | model reference => rfl
  | handle value => rfl
  | expression number value => rfl
  | constraint value => rfl
  | column tag value => rfl
  | row tag value => rfl

def isBinary : StoredKind α → Bool
  | listed .binary => true
  | _ => false

def isContinuous : StoredKind α → Bool
  | listed .continuous => true
  | _ => false

end StoredKind

namespace Row

variable {α : Type} [Scalar α]

/-- The row of an expression: its terms by index. -/
def ofExpression (expression : Expression α) : Row α :=
  expression.termList.foldl (fun row term => row.insert term.participant.index term.coefficient)
    { constant := expression.constant }

/-- Add the multiple of a variable that is in a cell, by the handle that is kept for it. -/
def addCell (handles : List Variable) (sum : Terms α) (cell : Index × α) :
    Except (Error α) (Terms α) := do
  let coefficient ← finite cell.2
  let handle ← cell.1.entry handles
  sum.add handle.participant coefficient

/-- The expression of a row, over the handles that a model keeps.  It exists only if all numbers of
the row are finite and all its cells have handles. -/
def toExpression (handles : List Variable) (relation : Relation) (row : Row α) :
    Except (Error α) (Expression α) := do
  let constant ← finite row.constant
  let terms ← row.cells.toList.foldlM (addCell handles) OrderedMap.empty
  return { terms, constant, relation }

end Row

end LinearProgram
