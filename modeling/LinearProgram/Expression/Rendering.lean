import LinearProgram.Expression.Basic
import LinearProgram.Text.Layout

/-!
# Writing expressions

An expression is written as a sum of signed terms.  An affine expression ends with its
constant; a related one with its relation and right hand side.  A constraint is written
after its name, with signed coefficients, in lines that are broken greedily.
-/

namespace LinearProgram.Expression

variable {α : Type} [Scalar α]

/-- The sign and magnitude of a term, without a magnitude of one, and the name of its variable. -/
def renderTerm (name : Participant → String) (term : Term α) : String :=
  let magnitude := Scalar.magnitude term.coefficient
  (if 0 ≤ term.coefficient then "+ " else "- ")
    ++ (if magnitude == 1 then "" else Scalar.text magnitude ++ " ") ++ name term.participant

/-- A sum without terms is written as zero. -/
def orZero (parts : List String) : List String := if parts.isEmpty then ["0"] else parts

/-- The expression as one line. -/
def render (name : Participant → String) (expression : Expression α) : String :=
  let terms := expression.termList.map (renderTerm name)
  let constant := expression.constant
  let parts :=
    match expression.relation with
    | .affine =>
      if constant == 0 then orZero terms
      else
        terms ++ [(if 0 < constant then "+ " else "- ") ++ Scalar.text (Scalar.magnitude constant)]
    | relation => orZero terms ++ [relation.sign, Scalar.text (-constant)]
  " ".intercalate parts

/-- A constraint is broken into lines past this many units. -/
def lineWidth : Nat := 75

/-- One item of a constraint: a signed coefficient and the name of its variable. -/
def renderItem (name : Participant → String) (term : Term α) : String :=
  " " ++ (if 0 ≤ term.coefficient then "+" else "") ++ Scalar.text term.coefficient ++ " "
    ++ name term.participant

/-- The expression as a named constraint. -/
def renderConstraint (label : String) (name : Participant → String) (expression : Expression α) :
    String :=
  label ++ ":" ++ Text.wrap lineWidth (expression.termList.map (renderItem name)) ++ " "
    ++ expression.relation.sign ++ " " ++ Scalar.text (-expression.constant)

end LinearProgram.Expression
