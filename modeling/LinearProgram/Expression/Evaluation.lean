import LinearProgram.Error
import LinearProgram.Expression.Basic

/-!
# Evaluating expressions

An assignment gives values to participants, not necessarily to all.  An expression has a value
where all its variables have one.  A related expression is violated by the amount that it
misses its right hand side, which is minus its constant.
-/

namespace LinearProgram.Expression

variable {α : Type} [Scalar α]

/-- A start value plus the terms' values, or nothing if a variable has no value. -/
def accumulate (assignment : Participant → Option α) (start : α) (terms : List (Term α)) :
    Option α :=
  terms.foldlM (fun total term =>
    (assignment term.participant).map (fun value => total + value * term.coefficient)) start

def value (assignment : Participant → Option α) (expression : Expression α) : Option α :=
  accumulate assignment expression.constant expression.termList

/-- How far a left hand side misses a right hand side. -/
def excess (relation : Relation) (left right : α) : Option α :=
  match relation with
  | .affine => none
  | .equal => some (Scalar.magnitude (left - right))
  | .atMost => some (Scalar.larger (left - right) 0)
  | .atLeast => some (Scalar.larger (right - left) 0)

/-- The amount by which the assignment violates the relation.  An expression without a
relation can not be violated, but that is only asked when all variables have values. -/
def violation (assignment : Participant → Option α) (expression : Expression α) :
    Except (Error α) (Option α) :=
  match accumulate assignment 0 expression.termList with
  | none => .ok none
  | some left =>
    match excess expression.relation left (-expression.constant) with
    | some amount => .ok (some amount)
    | none => .error Error.noRelation

end LinearProgram.Expression
