import LinearProgram.Column.Pairing
import LinearProgram.Literal
import LinearProgram.Model.Storage
import LinearProgram.Options

/-!
# Models

A model holds tables of variables and constraints, an objective, the assignments that were
recorded as excluding each other, and possibly a solution that was found elsewhere.
Constraints are kept as sparse rows; everything that is read by columns is derived from
them.

Beside these tables, a model keeps the handles that it has handed out, at the places of what they
refer to.  Expressions and columns are read over these handles.  A caller who works on the tables
directly can enter a variable or a constraint for which there is no handle.

This module holds the tables and what is read from them.  What a solution says, how the
model changes and which assignments are in conflict are in modules of their own.
-/

namespace LinearProgram

/-- What a model knows about a variable, apart from its coefficients. -/
structure VariableRecord (α : Type) [Scalar α] where
  name : String
  lower : α
  upper : α
  kind : StoredKind α

/-- What a model knows about a constraint. -/
structure ConstraintRecord (α : Type) where
  name : String
  row : Row α
  relation : Relation
  deriving DecidableEq, Repr

/-- A mixed-integer linear program, with the last solution if it is still valid. -/
structure Model (α : Type) [Scalar α] where
  reference : ModelRef
  /-- The handles that were handed out for variables, in the order of the table. -/
  variableHandles : List Variable := []
  /-- The handles that were handed out for constraints, in the order of the table. -/
  constraintHandles : List Constraint := []
  variableTable : List (VariableRecord α) := []
  constraintTable : List (ConstraintRecord α) := []
  variableNames : NameRegistry := OrderedMap.empty
  constraintNames : NameRegistry := OrderedMap.empty
  objective : Row α
  direction : Direction := .minimize
  status : Status := .loaded
  solution : Option (SolutionData α) := none
  /-- The keys of the pairs of assignments that exclude each other. -/
  conflicts : List String := []

namespace Model

variable {α : Type} [Scalar α]

/-- The model without variables and constraints. -/
def new (reference : ModelRef) (direction : Direction) : Model α :=
  { reference, direction, objective := { constant := 0 } }

def handle (model : Model α) (index : Index) : Variable := model.reference.variable index

def constraintHandle (model : Model α) (index : Index) : Constraint :=
  { model := model.reference, index }

/-- The next handle of a variable: its place is that of the handle among the others. -/
def nextHandle (model : Model α) : Variable := model.handle (.place model.variableHandles.length)

def nextConstraintHandle (model : Model α) : Constraint :=
  model.constraintHandle (.place model.constraintHandles.length)

/-- The place in the table of variables that an index states, if the table has one there. -/
def variablePosition? (model : Model α) (index : Index) : Option Nat :=
  index.position?.filter (· < model.variableTable.length)

/-- The handle that the model keeps at an index. -/
def handle? (model : Model α) (index : Index) : Option Variable :=
  index.get? model.variableHandles

def constraintHandle? (model : Model α) (index : Index) : Option Constraint :=
  index.get? model.constraintHandles

/-- The number of variables. -/
def columnCount (model : Model α) : Nat := model.variableTable.length

/-- The number of constraints. -/
def rowCount (model : Model α) : Nat := model.constraintTable.length

def cellCount (model : Model α) : Nat :=
  model.constraintTable.foldl (fun count constraint => count + constraint.row.size) 0

def variableName (model : Model α) (index : Index) : String :=
  ((index.get? model.variableTable).map VariableRecord.name).getD ""

def constraintName (model : Model α) (index : Index) : String :=
  ((index.get? model.constraintTable).map ConstraintRecord.name).getD ""

def variableByName (model : Model α) (name : String) : Option Nat := model.variableNames.get? name

def constraintByName (model : Model α) (name : String) : Option Nat :=
  model.constraintNames.get? name

/-- The bounds of a variable; a report shows an index without a variable as not bounded. -/
def bounds (model : Model α) (index : Index) : α × α :=
  ((index.get? model.variableTable).map (fun data => (data.lower, data.upper))).getD
    (-Scalar.infinity, Scalar.infinity)

/-- The bounds of a variable that has to be in the table. -/
def requireBounds (model : Model α) (index : Index) : Except (Error α) (α × α) :=
  (index.entry model.variableTable).map (fun data => (data.lower, data.upper))

def kind (model : Model α) (index : Index) : StoredKind α :=
  ((index.get? model.variableTable).map VariableRecord.kind).getD (.listed .continuous)

def objectiveExpression (model : Model α) : Except (Error α) (Expression α) :=
  model.objective.toExpression model.variableHandles .affine

def objectiveCoefficient (model : Model α) (index : Index) : α := model.objective.coefficient index

/-- The row of a constraint; an index without a constraint has an empty one. -/
def row (model : Model α) (index : Index) : Row α :=
  ((index.get? model.constraintTable).map ConstraintRecord.row).getD { constant := 0 }

def relation (model : Model α) (index : Index) : Relation :=
  ((index.get? model.constraintTable).map ConstraintRecord.relation).getD .affine

/-- The expression of a constraint, which has to be in the table. -/
def constraintExpression (model : Model α) (index : Index) : Except (Error α) (Expression α) := do
  let data ← index.entry model.constraintTable
  data.row.toExpression model.variableHandles data.relation

/-- The right hand side of a constraint: minus the constant of its row. -/
def rightHandSide (model : Model α) (index : Index) : α := -(model.row index).constant

/-- The indices and coefficients of the constraints in which a variable occurs. -/
def columnCells (model : Model α) (index : Index) : List (Index × α) :=
  (model.constraintTable.zipIdx.map
    (fun entry => (Index.place entry.2, entry.1.row.coefficient index))).filter
    (fun cell => !(cell.2 == 0))

/-- The column of a variable.  It exists only if its coefficients are finite, and are those of
constraints that have handles. -/
def column (model : Model α) (index : Index) : Except (Error α) (Column α) := do
  let cells := model.columnCells index
  let constraints ← cells.mapM (fun cell => cell.1.entry model.constraintHandles)
  Column.pair (constraints.map Constraint.participant) (cells.map Prod.snd)

end Model

end LinearProgram
