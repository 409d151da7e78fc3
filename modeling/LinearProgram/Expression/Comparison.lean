import LinearProgram.Value.Accepted

/-!
# Comparing expressions

Two expressions are equal if they are related to zero alike and have the same variables,
with constants and coefficients that differ by no more than the zero tolerance.  The key is
finer: it writes out relation, constant and coefficients in the order of the variables'
indices, so it does not depend on the order in which terms were added.
-/

namespace LinearProgram.Expression

variable {α : Type} [Scalar α]

/-- Whether two numbers differ by no more than the zero tolerance. -/
def close (first second : α) : Bool := decide (Scalar.magnitude (first - second) ≤ Scalar.epsilon)

/-- Whether two terms agree in owner and, up to the tolerance, in coefficient. -/
def agrees (first second : Term α) : Bool :=
  first.participant.owner.same second.participant.owner
    && close first.coefficient second.coefficient

/-- Equality up to the zero tolerance and the order of terms. -/
def equals (first second : Expression α) : Bool :=
  first.relation = second.relation && first.size = second.size &&
    close first.constant second.constant &&
    first.terms.toList.all (fun entry =>
      match second.terms.get? entry.1 with
      | some counterpart => agrees entry.2 counterpart
      | none => false)

/-- Whether a value is an equal expression.  A record can be one only of an expression without
terms, whose relation, size and constant it states.  The constant is not looked at before the
other two agree. -/
def equalsValue (reckon : Reckoning α) (expression : Expression α) (other : Value α) :
    Except (Error α) Bool :=
  match other with
  | .expression _ other => .ok (expression.equals other)
  | other =>
    if (other.member "relation").identical (.text expression.relation.mark)
        && (other.member "terms").size.identical (.count expression.size) then
      (reckon other.constant).map (fun constant =>
        close expression.constant constant && expression.isConstant)
    else .ok false

/-- The part of the key that stands for one term. -/
def keyCell (entry : Index × Term α) : String :=
  entry.1.text α ++ ":" ++ Scalar.text entry.2.coefficient

/-- The terms in the order of their indices. -/
def sortedEntries (expression : Expression α) : List (Index × Term α) :=
  Sorting.sort (fun first second => first.1.before α second.1) expression.terms.toList

/-- A text made of the exact contents, whatever the order of terms. -/
def key (expression : Expression α) : String :=
  "|".intercalate
    (expression.relation.mark :: Scalar.text expression.constant ::
      expression.sortedEntries.map keyCell)

end LinearProgram.Expression
