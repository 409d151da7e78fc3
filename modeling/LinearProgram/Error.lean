import LinearProgram.Expression.Rendering
import LinearProgram.Issue
import LinearProgram.Naming
import LinearProgram.Value.Written

/-!
# Errors

Why an operation was refused.  A constructor is a cause with the values that led to it.  The
wording is in one function, which needs a naming for variables and constraints; the coarser
kind by which callers tell errors apart is in another.
-/

namespace LinearProgram

/-- The causes for which an operation is refused. -/
inductive Error (α : Type) [Scalar α] where
  /-- An operation needs a number and got another value. -/
  | notScalar (operation received : Value α)
  /-- A value of this type can not take part in an expression. -/
  | unsupported (received : Value α)
  /-- There are not as many coefficients as variables. -/
  | termCount (handles coefficients : Value α)
  /-- There are not as many coefficients as constraints. -/
  | columnCount (handles coefficients : Value α)
  /-- The value is no relation, or none that the operation can use. -/
  | invalidRelation (given : Value α)
  /-- The value is no kind of variable. -/
  | invalidKind (given : Value α)
  /-- A variable of one model can not join terms of another. -/
  | foreignTerm (index : Index)
  | mixedModels
  /-- The model does not have this variable. -/
  | foreignVariable (index : Index)
  /-- The model does not have this constraint. -/
  | foreignConstraint (index : Index)
  /-- An expression over another model can not be stored. -/
  | foreignExpression (owner : Owner)
  /-- An expression over another model can not replace this constraint. -/
  | foreignReplacement (index : Index)
  /-- The value is not a finite number. -/
  | notFinite (given : Value α)
  /-- The expression does not fix one variable at zero. -/
  | notAssignment (given : Expression α)
  | notBinary (participant : Participant)
  | invalidOptions (subject : Value α) (issues : List Issue)

inductive ErrorKind where
  | typeMismatch
  | lengthMismatch
  | invalidRelation
  | invalidKind
  | modelMismatch
  | invalidCoefficient
  | invalidLiteral
  | invalidOptions
  deriving DecidableEq, Repr

def ErrorKind.code : ErrorKind → String
  | typeMismatch => "TYPE_MISMATCH"
  | lengthMismatch => "LENGTH_MISMATCH"
  | invalidRelation => "INVALID_SENSE"
  | invalidKind => "INVALID_VAR_TYPE"
  | modelMismatch => "MODEL_MISMATCH"
  | invalidCoefficient => "INVALID_COEFFICIENT"
  | invalidLiteral => "INVALID_LITERAL"
  | invalidOptions => "INVALID_OPTIONS"

namespace Error

variable {α : Type} [Scalar α]

def kind : Error α → ErrorKind
  | notScalar _ _ | unsupported _ => .typeMismatch
  | termCount _ _ | columnCount _ _ => .lengthMismatch
  | invalidRelation _ => .invalidRelation
  | invalidKind _ => .invalidKind
  | foreignTerm _ | mixedModels | foreignVariable _ | foreignConstraint _ | foreignExpression _
  | foreignReplacement _ => .modelMismatch
  | notFinite _ => .invalidCoefficient
  | notAssignment _ | notBinary _ => .invalidLiteral
  | invalidOptions _ _ => .invalidOptions

/-- The value that was received instead of one that an operation needs. -/
def received? : Error α → Option (Value α)
  | notScalar _ received | unsupported received => some received
  | _ => none

def issues? : Error α → Option (List Issue)
  | invalidOptions _ issues => some issues
  | _ => none

/-- The titles that the message of an error shows, in the order in which it shows them. -/
def shownTitles (naming : Naming) : Error α → List Title
  | notScalar operation received => [operation.title, (naming.typeOf received).title]
  | unsupported received => [(naming.typeOf received).title]
  | termCount first second | columnCount first second => [first.title, second.title]
  | foreignExpression owner => [owner.title]
  | notFinite given => [given.title]
  | notAssignment given => given.titles
  | notBinary participant => [participant.title]
  | invalidOptions subject _ => [subject.title]
  | _ => []

def message (naming : Naming) : Error α → String
  | notScalar operation received =>
    "can not " ++ naming.plain operation ++ " with type " ++ naming.plain (naming.typeOf received)
  | unsupported received => "type " ++ naming.plain (naming.typeOf received) ++ " not supported"
  | termCount handles coefficients =>
    "got " ++ naming.plain handles ++ " variables but " ++ naming.plain coefficients
      ++ " coefficients"
  | columnCount handles coefficients =>
    "column has " ++ naming.plain handles ++ " constraints but " ++ naming.plain coefficients
      ++ " coefficients"
  | invalidRelation given => "invalid sense " ++ given.shown
  | invalidKind given =>
    "expected one of " ++ ", ".intercalate (VariableKind.all.map VariableKind.code)
      ++ ", but got " ++ given.shown
  | foreignTerm index =>
    "variable " ++ index.text α ++ " belongs to another model than the expression"
  | mixedModels => "can not combine expressions of different models"
  | foreignVariable index => "variable " ++ index.text α ++ " belongs to another model"
  | foreignConstraint index => "constraint " ++ index.text α ++ " belongs to another model"
  | foreignExpression owner =>
    "expression refers to variables of model \"" ++ owner.title.write naming ++ "\""
  | foreignReplacement index =>
    "constraint " ++ index.text α ++ " can not take variables of another model"
  | notFinite given => "expected a finite number, got " ++ naming.plain given
  | notAssignment given =>
    "expected an expression of the form x == 0, got " ++ given.render naming.name
  | notBinary participant => "variable " ++ naming.name participant ++ " is not binary"
  | invalidOptions subject issues =>
    "invalid " ++ naming.plain subject ++ ": " ++ "; ".intercalate (issues.map Issue.text)

end Error

/-- The refusal of an expression that is not related to zero. -/
def Error.noRelation {α : Type} [Scalar α] : Error α :=
  .invalidRelation (.text Relation.affine.mark)

/-- The refusal of what a table does not have: nothing is found there, and nothing is of no use to
any operation. -/
def Error.noEntry {α : Type} [Scalar α] : Error α := .unsupported .missing

/-- What a table has at an index, where it has to have something. -/
def Index.entry {α β : Type} [Scalar α] (index : Index) (table : List β) : Except (Error α) β :=
  match index.get? table with
  | some entry => .ok entry
  | none => .error .noEntry

/-- A number that may be stored. -/
def finite {α : Type} [Scalar α] (value : α) : Except (Error α) α :=
  if Scalar.isFinite value then .ok value else .error (.notFinite (.number value))

/-- A checked value can be used in an update; if the check fails, so does the update. -/
instance checkedInUpdate {ε σ : Type} : MonadLift (Except ε) (EStateM ε σ) where
  monadLift
    | .ok value => pure value
    | .error error => throw error

end LinearProgram
