import LinearProgram.Expression.Rendering
import LinearProgram.Model.Solution

/-!
# Reports

All that can be read about a variable, a constraint or a whole model, at one moment.  Parts
of a report can fail by themselves: a row whose numbers stopped being finite has no
expression, and a row without a relation is not written as a constraint.
-/

namespace LinearProgram

/-- What can be read about a variable. -/
structure VariableReport (α : Type) [Scalar α] where
  index : Index
  name : String
  lower : α
  upper : α
  objective : α
  kind : StoredKind α
  column : Except (Error α) (List (Index × α))
  reducedCost : Option α
  value : Option α

/-- What can be read about a constraint. -/
structure ConstraintReport (α : Type) [Scalar α] where
  index : Index
  name : String
  rightHandSide : α
  expression : Except (Error α) (Expression α)
  slack : Option α
  dual : Option α
  text : Except (Error α) String

/-- What can be read about a model. -/
structure ModelReport (α : Type) [Scalar α] where
  name : String
  direction : Direction
  status : Status
  objectiveValue : Option α
  solutionCount : Nat
  columnCount : Nat
  rowCount : Nat
  cellCount : Nat
  objective : Except (Error α) (Expression α)
  variableReports : List (VariableReport α)
  constraintReports : List (ConstraintReport α)

namespace Model

variable {α : Type} [Scalar α]

/-- A constraint as text, under its name or, without one, under its number. -/
def renderConstraint (model : Model α) (index : Index) : Except (Error α) String := do
  let expression ← model.constraintExpression index
  if expression.relation = .affine then throw .noRelation
  let name := model.constraintName index
  let label := if name = "" then "constr(" ++ index.next.text α ++ ")" else name
  return expression.renderConstraint label (fun participant => model.variableName participant.index)

def variableReport (model : Model α) (index : Index) : VariableReport α where
  index := index
  name := model.variableName index
  lower := (model.bounds index).1
  upper := (model.bounds index).2
  objective := model.objectiveCoefficient index
  kind := model.kind index
  column := (model.column index).map
    (fun column => column.entries.map (fun entry => (entry.1.index, entry.2)))
  reducedCost := model.reducedCost index
  value := model.value index

def constraintReport (model : Model α) (index : Index) : ConstraintReport α where
  index := index
  name := model.constraintName index
  rightHandSide := model.rightHandSide index
  expression := model.constraintExpression index
  slack := model.slack index
  dual := model.dual index
  text := model.renderConstraint index

/-- The report of a model, with those of the variables and constraints for which it keeps handles,
in table order. -/
def report (model : Model α) : ModelReport α where
  name := model.reference.name
  direction := model.direction
  status := model.status
  objectiveValue := model.objectiveValue
  solutionCount := model.solutionCount
  columnCount := model.columnCount
  rowCount := model.rowCount
  cellCount := model.cellCount
  objective := model.objectiveExpression
  variableReports := model.variableHandles.map (fun handle => model.variableReport handle.index)
  constraintReports := model.constraintHandles.map
    (fun constraint => model.constraintReport constraint.index)

end Model

end LinearProgram
