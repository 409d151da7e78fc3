import LinearProgram.Expression.Comparison
import LinearProgram.Expression.Evaluation
import LinearProgram.Expression.Heap
import LinearProgram.Model.Change
import LinearProgram.Model.Conflict
import LinearProgram.Model.Report

/-!
# Workspaces

A workspace holds the models and the expressions that were created, and the objects that a caller
has named.  Handles and expressions can belong to different models, so whatever follows a handle to
its model (names, conflicts) is answered here.

Expressions are changed in place, and one can take part in another one.  So they are objects on a
heap, and everything that refers to an expression states its number.
-/

namespace LinearProgram

/-- What a name stands for. -/
inductive Named (α : Type) [Scalar α] where
  | expression (number : Nat)
  | value (value : Value α)

/-- What a name for a value has to stand for. -/
def Named.ofValue {α : Type} [Scalar α] : Value α → Named α
  | .expression number _ => expression number
  | other => value other

/-- What a name stands for, in the place of an owner. -/
def Named.asOwner {α : Type} [Scalar α] : Named α → Owner
  | expression number => (Value.expression number { constant := (0 : α) }).asOwner
  | value given => given.asOwner

/-- Models, expressions, and the objects that were given names. -/
structure Workspace (α : Type) [Scalar α] where
  /-- The models, at the positions that their references state. -/
  models : List (Model α) := []
  /-- The expressions, under their numbers. -/
  heap : Heap α := {}
  objects : OrderedMap String (Named α) := OrderedMap.empty
  /-- How many tags were given out. -/
  tagCount : Nat := 0

namespace Workspace

variable {α : Type} [Scalar α]

def model (workspace : Workspace α) (reference : ModelRef) : Model α :=
  (workspace.models[reference.id]?).getD (Model.new reference .minimize)

/-- How messages call variables and constraints, and also expressions if their texts are given.  A
constraint that can not be written has no text. -/
def namingWith (workspace : Workspace α) (expressionText : Nat → String) : Naming where
  variableName := fun reference => (workspace.model reference).variableName
  constraintName := fun reference => (workspace.model reference).constraintName
  constraintText := fun reference index =>
    match (workspace.model reference).renderConstraint index with
    | .ok text => text
    | .error _ => ""
  expressionText

/-- An expression as text, if what takes part in it is called by the texts of other expressions no
more than so many times over. -/
def expressionText (workspace : Workspace α) : Nat → Nat → String
  | 0, _ => ""
  | steps + 1, number =>
    let naming := workspace.namingWith (workspace.expressionText steps)
    ((workspace.heap.read? number).map (Expression.render naming.name)).getD ""

/-- How messages call variables, constraints and expressions. -/
def naming (workspace : Workspace α) : Naming :=
  workspace.namingWith (workspace.expressionText (workspace.heap.size + 1))

/-- The name under which an owner is found. -/
def ownerName? (workspace : Workspace α) (owner : Owner) : Option String :=
  (workspace.objects.toList.find? (fun entry => entry.2.asOwner.same owner)).map Prod.fst

/-- Whether two literals of one model are in conflict.  Both values are read as literals
before either is looked up in the model. -/
def conflicting (workspace : Workspace α) (reference : ModelRef) (first second : Value α) :
    Except (Error α) Bool := do
  let first ← Literal.ofValue first
  let second ← Literal.ofValue second
  let model := workspace.model reference
  model.requireBinary first
  model.requireBinary second
  model.findConflict first.assignment second.assignment

/-- The variables whose assignments to one, and to zero, are in conflict with a literal. -/
def conflicts (workspace : Workspace α) (reference : ModelRef) (value : Value α) :
    Except (Error α) (List Nat × List Nat) := do
  let literal ← Literal.ofValue value
  let model := workspace.model reference
  model.requireBinary literal
  return (← model.findConflicts literal.assignment true,
    ← model.findConflicts literal.assignment false)

end Workspace

end LinearProgram
