import LinearProgram.Value.Accepted

/-!
# Literals

A literal fixes a binary variable: at one, or at zero.  A variable by itself stands for
fixing it at one, an equation of the variable with zero for fixing it at zero.
-/

namespace LinearProgram

/-- A variable fixed at one, if positive, or at zero. -/
structure Literal where
  positive : Bool
  participant : Participant
  deriving DecidableEq, Repr

/-- What a literal says inside its model: an index fixed at one or at zero. -/
structure Assignment where
  positive : Bool
  index : Index
  deriving DecidableEq, Repr

namespace Literal

variable {α : Type} [Scalar α]

/-- What the literal says inside its model. -/
def assignment (literal : Literal) : Assignment := ⟨literal.positive, literal.participant.index⟩

/-- The variable of an expression that has only one term, is equated to zero and has no constant. -/
def zeroed? (expression : Expression α) : Option Participant :=
  match expression.relation, expression.termList with
  | .equal, [term] => if Scalar.nearZero expression.constant then some term.participant else none
  | _, _ => none

/-- The literal that a value stands for. -/
def ofValue : Value α → Except (Error α) Literal
  | .handle handle => .ok ⟨true, handle.participant⟩
  | .expression _ expression =>
    match zeroed? expression with
    | some participant => .ok ⟨false, participant⟩
    | none => .error (.notAssignment expression)
  | other => .error (.unsupported other)

end Literal

namespace Assignment

/-- The value at which an assignment fixes its variable. -/
def value {α : Type} [Scalar α] (assignment : Assignment) : α :=
  if assignment.positive then 1 else 0

variable (α : Type) [Scalar α]

/-- An assignment in writing: a sign and the index. -/
def key (assignment : Assignment) : String :=
  (if assignment.positive then "+" else "-") ++ assignment.index.text α

/-- Two assignments in writing, whatever their order. -/
def pairKey (first second : Assignment) : String :=
  if Text.atMost (first.key α) (second.key α) then first.key α ++ "|" ++ second.key α
  else second.key α ++ "|" ++ first.key α

end Assignment

end LinearProgram
