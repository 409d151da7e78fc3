import LinearProgram.Expression.Operators
import LinearProgram.Model.Basic

/-!
# Changing a model

Every change is an update of the model that can fail.  What a change needs is checked before
it writes; a change that is refused leaves the model as it was, apart from a solution of the
wrong size, which replaces the old one by none.  A change of anything that a solution
depends on discards the solution.

The functions whose names begin with `store` write without asking for more than that there is
something to write to.  They are what a caller reaches who works on the tables directly; all other
changes come with their checks.
-/

namespace LinearProgram

/-- An update of a model that can fail. -/
abbrev ModelUpdate (α : Type) [Scalar α] (β : Type) := EStateM (Error α) (Model α) β

namespace Model

variable {α : Type} [Scalar α]

/-- Discard the solution. -/
def invalidate : ModelUpdate α Unit :=
  modify (fun model => { model with solution := none, status := .loaded })

/-- Refuse an index without a variable. -/
def requireVariable (index : Index) : ModelUpdate α Unit := do
  let model ← get
  let _ ← (index.entry model.variableTable : Except (Error α) _)

/-- Refuse an index without a constraint. -/
def requireConstraint (index : Index) : ModelUpdate α Unit := do
  let model ← get
  let _ ← (index.entry model.constraintTable : Except (Error α) _)

/-- Refuse a constraint of another model. -/
def requireOwn (constraint : Participant) : ModelUpdate α Unit := do
  if constraint.owner ≠ .model (← get).reference then throw (.foreignConstraint constraint.index)

/-- Refuse a constraint of another model, or one that is not in the table. -/
def requireRow (constraint : Participant) : ModelUpdate α Unit := do
  requireOwn constraint
  requireConstraint constraint.index

def modifyVariable (index : Index) (change : VariableRecord α → VariableRecord α) :
    ModelUpdate α Unit :=
  modify (fun model => { model with variableTable := index.modify change model.variableTable })

def modifyConstraint (index : Index) (change : ConstraintRecord α → ConstraintRecord α) :
    ModelUpdate α Unit :=
  modify (fun model => { model with constraintTable := index.modify change model.constraintTable })

def modifyRow (index : Index) (change : Row α → Row α) : ModelUpdate α Unit :=
  modifyConstraint index (fun data => { data with row := change data.row })

/-- Add the entries of a column to the cells of a variable, in order.  Their rows have to be
there. -/
def insertEntries (index : Index) (entries : List (Participant × α)) : ModelUpdate α Unit :=
  entries.forM (fun entry => modifyRow entry.1.index (fun row => row.insert index entry.2))

/-- Keep a handle for the next place. -/
def keepHandle (handle : Variable) : ModelUpdate α Unit :=
  modify (fun model => { model with variableHandles := model.variableHandles ++ [handle] })

def keepConstraintHandle (handle : Constraint) : ModelUpdate α Unit :=
  modify (fun model => { model with constraintHandles := model.constraintHandles ++ [handle] })

/-- The name of a variable that was not given one. -/
def variableFallback (position : Nat) : String := s!"var({position})"

def constraintFallback (position : Nat) : String := s!"constr({position})"

/-- Append a variable under a unique name, with its coefficients.  Its column may only name
constraints of this model that are in the table. -/
def storeVariable (options : VariableOptions α) : ModelUpdate α Unit := do
  let entries := (options.column.getD Column.empty).entries
  entries.forM (fun entry => requireRow entry.1)
  let model ← get
  let position := model.columnCount
  let name := model.variableNames.unique (options.name.getD "") (variableFallback position)
  let data : VariableRecord α := ⟨name, options.lower, options.upper, .listed options.kind⟩
  set { model with
    variableTable := model.variableTable ++ [data]
    variableNames := model.variableNames.insert name position
    objective := model.objective.insert (.place position) options.objective }
  insertEntries (.place position) entries
  invalidate

/-- The bounds that a variable has after it became of a kind: those of a binary variable are
clipped to the unit interval. -/
def clipped (kind : StoredKind α) (lower upper : α) : α × α :=
  if kind.isBinary then (Scalar.larger lower 0, Scalar.smaller upper 1) else (lower, upper)

/-- Refuse bounds that are not in order, if they are those of a binary variable. -/
def requireBinaryBounds (kind : VariableKind) (lower upper : α) (subject : String) :
    Except (Error α) Unit :=
  if kind = .binary then checkBounds lower upper subject else .ok ()

/-- Add a variable, with options as a caller gives them.  Its handle is the next one, and is kept
once the variable is in the table. -/
def addVariable (options : Value α) : ModelUpdate α Variable := do
  let options ← VariableOptions.read.require "variable options" (options.orElse .noOptions)
  let (lower, upper) := clipped (.listed options.kind) options.lower options.upper
  requireBinaryBounds options.kind lower upper "variable options"
  (options.column.getD Column.empty).entries.forM (fun entry => requireOwn entry.1)
  let handle := (← get).nextHandle
  storeVariable { options with lower, upper }
  keepHandle handle
  return handle

/-- Refuse an expression that is not related to zero. -/
def requireRelated (expression : Expression α) : Except (Error α) Unit :=
  if expression.relation = .affine then .error .noRelation else .ok ()

/-- Refuse an expression of another model, for a reason that may depend on its owner. -/
def requireOwned (expression : Expression α) (refusal : Owner → Error α) : ModelUpdate α Unit := do
  match expression.owner? with
  | some owner => if owner ≠ .model (← get).reference then throw (refusal owner)
  | none => pure ()

/-- Append a constraint under a unique name. -/
def storeConstraint (expression : Expression α) (name : String) : ModelUpdate α Unit := do
  let model ← get
  let position := model.rowCount
  let name := model.constraintNames.unique name (constraintFallback position)
  let data : ConstraintRecord α := ⟨name, Row.ofExpression expression, expression.relation⟩
  set { model with
    constraintTable := model.constraintTable ++ [data]
    constraintNames := model.constraintNames.insert name position }
  invalidate

/-- Add a constraint.  The expression has to be related, and over this model.  The handle is kept
as that of a variable is. -/
def addConstraint (expression : Expression α) (name : String) : ModelUpdate α Constraint := do
  requireRelated expression
  requireOwned expression .foreignExpression
  let handle := (← get).nextConstraintHandle
  storeConstraint expression name
  keepConstraintHandle handle
  return handle

def storeObjective (expression : Expression α) : ModelUpdate α Unit := do
  modify (fun model => { model with objective := Row.ofExpression expression })
  invalidate

/-- Replace the objective by a number, a variable or an expression, whose relation does not
count. -/
def setObjective (value : Value α) : ModelUpdate α Unit := do
  let expression ← Expression.sum [value]
  requireOwned expression .foreignExpression
  storeObjective expression

def storeDirection (direction : Direction) : ModelUpdate α Unit := do
  modify (fun model => { model with direction })
  invalidate

def setDirection (value : Value α) : ModelUpdate α Unit := do
  storeDirection (← Reader.direction.require "objective sense" value)

/-- Rename the variable at a position.  Its old name becomes free before the new one is looked
for. -/
def renameAt (position : Nat) (name : String) : ModelUpdate α Unit := do
  let model ← get
  let others : NameRegistry := model.variableNames.erase (model.variableName (.place position))
  let name := others.unique name (variableFallback position)
  set { model with
    variableTable := model.variableTable.modify position (fun data => { data with name })
    variableNames := others.insert name position }

/-- Rename a variable, which has to be in the table. -/
def setName (index : Index) (name : String) : ModelUpdate α Unit := do
  match (← get).variablePosition? index with
  | some position => renameAt position name
  | none => throw .noEntry

def storeLower (index : Index) (lower : α) : ModelUpdate α Unit := do
  requireVariable index
  modifyVariable index (fun data => { data with lower })
  invalidate

def storeUpper (index : Index) (upper : α) : ModelUpdate α Unit := do
  requireVariable index
  modifyVariable index (fun data => { data with upper })
  invalidate

/-- Write a kind, clipping the bounds of a binary variable. -/
def storeKind (index : Index) (kind : StoredKind α) : ModelUpdate α Unit := do
  requireVariable index
  modifyVariable index (fun data =>
    let (lower, upper) := clipped kind data.lower data.upper
    { data with kind, lower, upper })
  invalidate

/-- Set a lower bound, which may not exceed the upper bound. -/
def setLower (index : Index) (value : Value α) : ModelUpdate α Unit := do
  let lower ← Reader.bound.require "lower bound" value
  let (_, upper) ← (← get).requireBounds index
  checkBounds lower upper "lower bound"
  storeLower index lower

/-- Set an upper bound, which may not be below the lower bound. -/
def setUpper (index : Index) (value : Value α) : ModelUpdate α Unit := do
  let upper ← Reader.bound.require "upper bound" value
  let (lower, _) ← (← get).requireBounds index
  checkBounds lower upper "upper bound"
  storeUpper index upper

/-- Set the kind of a variable.  The bounds of a binary variable have to meet the unit interval. -/
def setKind (index : Index) (value : Value α) : ModelUpdate α Unit := do
  let kind ← value.variableKind
  let (lower, upper) ← (← get).requireBounds index
  let (lower, upper) := clipped (.listed kind) lower upper
  requireBinaryBounds kind lower upper "variable type"
  storeKind index (.listed kind)

/-- Write the coefficient of a variable in the objective; its cell moves to the end. -/
def storeObjectiveCoefficient (index : Index) (coefficient : α) : ModelUpdate α Unit := do
  modify (fun model =>
    { model with objective := (model.objective.remove index).insert index coefficient })
  invalidate

def setObjectiveCoefficient (index : Index) (value : Value α) : ModelUpdate α Unit := do
  storeObjectiveCoefficient index (← Reader.objective.require "objective coefficient" value)

/-- Replace all coefficients of a variable in the constraints. -/
def storeEntries (index : Index) (entries : List (Participant × α)) : ModelUpdate α Unit := do
  entries.forM (fun entry => requireRow entry.1)
  modify (fun model =>
    { model with
      constraintTable := model.constraintTable.map (fun data =>
        { data with row := data.row.remove index }) })
  insertEntries index entries
  invalidate

def setColumn (index : Index) (column : Value α) : ModelUpdate α Unit := do
  storeEntries index (← Column.entriesOf column)

def setRightHandSide (index : Index) (value : α) : ModelUpdate α Unit := do
  requireConstraint index
  modifyRow index (fun row => { row with constant := -value })
  invalidate

def storeExpression (index : Index) (expression : Expression α) : ModelUpdate α Unit := do
  requireConstraint index
  modifyConstraint index (fun data =>
    { data with row := Row.ofExpression expression, relation := expression.relation })
  invalidate

/-- Replace a constraint by a related expression over this model. -/
def setExpression (index : Index) (expression : Expression α) : ModelUpdate α Unit := do
  requireRelated expression
  requireOwned expression (fun _ => .foreignReplacement index)
  storeExpression index expression

/-- The issue of a list that does not have the expected length. -/
def lengthIssues (path : List String) (expected : Nat) (values : List α) : List Issue :=
  if values.length = expected then [] else [⟨path, .wrongLength expected values.length⟩]

/-- All issues of the lengths of a solution: one value per variable and one dual value per
constraint. -/
def solutionIssues (model : Model α) (data : SolutionData α) : List Issue :=
  lengthIssues ["x"] model.columnCount data.values
    ++ (data.pool.getD []).zipIdx.flatMap (fun entry =>
      lengthIssues ["pool", toString entry.2] model.columnCount entry.1)
    ++ (data.reducedCosts.map (lengthIssues ["rc"] model.columnCount)).getD []
    ++ (data.duals.map (lengthIssues ["pi"] model.rowCount)).getD []

/-- Keep the values of a solution, if their numbers fit the model. -/
def keepSolution (data : SolutionData α) : ModelUpdate α Unit := do
  let issues := (← get).solutionIssues data
  if issues.isEmpty then
    modify (fun model => { model with solution := some data })
  else
    modify (fun model => { model with status := .error })
    throw (.invalidOptions (.text "solution") issues)

/-- Load the result of an optimization.  Values are kept only for a status that has
solutions, and only if their numbers fit the model. -/
def loadSolution (value : Value α) : ModelUpdate α Unit := do
  let data ← SolutionData.read.require "solution" value
  modify (fun model => { model with status := data.status, solution := none })
  if data.status.hasSolution then keepSolution data

def requireOwnLiteral (literal : Literal) : ModelUpdate α Unit := do
  if literal.participant.owner ≠ .model (← get).reference then
    throw (.foreignVariable literal.participant.index)

def addConflict (first second : Literal) : ModelUpdate α Unit := do
  requireOwnLiteral first
  requireOwnLiteral second
  modify (fun model =>
    { model with
      conflicts := model.conflicts.insert (first.assignment.pairKey α second.assignment) })

/-- A change of a model, with its arguments as a caller gives them. -/
inductive Change (α : Type) [Scalar α] where
  | addVariable (options : Value α)
  | addConstraint (expression : Expression α) (name : String)
  | setObjective (value : Value α)
  | setDirection (value : Value α)
  | setName (index : Index) (name : String)
  | setLower (index : Index) (value : Value α)
  | setUpper (index : Index) (value : Value α)
  | setKind (index : Index) (value : Value α)
  | setObjectiveCoefficient (index : Index) (value : Value α)
  | setColumn (index : Index) (column : Value α)
  | setRightHandSide (index : Index) (value : α)
  | setExpression (index : Index) (expression : Expression α)
  | storeVariable (options : VariableOptions α)
  | storeConstraint (expression : Expression α) (name : String)
  | storeObjective (expression : Expression α)
  | storeDirection (direction : Direction)
  | storeLower (index : Index) (lower : α)
  | storeUpper (index : Index) (upper : α)
  | storeKind (index : Index) (kind : Value α)
  | storeObjectiveCoefficient (index : Index) (coefficient : α)
  | storeExpression (index : Index) (expression : Expression α)
  | loadSolution (value : Value α)
  | clearSolution
  | addConflict (first second : Literal)

def Change.apply : Change α → ModelUpdate α Unit
  | addVariable options => discard (Model.addVariable options)
  | addConstraint expression name => discard (Model.addConstraint expression name)
  | setObjective value => Model.setObjective value
  | setDirection value => Model.setDirection value
  | setName index name => Model.setName index name
  | setLower index value => Model.setLower index value
  | setUpper index value => Model.setUpper index value
  | setKind index value => Model.setKind index value
  | setObjectiveCoefficient index value => Model.setObjectiveCoefficient index value
  | setColumn index column => Model.setColumn index column
  | setRightHandSide index value => Model.setRightHandSide index value
  | setExpression index expression => Model.setExpression index expression
  | storeVariable options => Model.storeVariable options
  | storeConstraint expression name => Model.storeConstraint expression name
  | storeObjective expression => Model.storeObjective expression
  | storeDirection direction => Model.storeDirection direction
  | storeLower index lower => Model.storeLower index lower
  | storeUpper index upper => Model.storeUpper index upper
  | storeKind index kind => Model.storeKind index (.ofValue kind)
  | storeObjectiveCoefficient index coefficient =>
    Model.storeObjectiveCoefficient index coefficient
  | storeExpression index expression => Model.storeExpression index expression
  | loadSolution value => Model.loadSolution value
  | clearSolution => invalidate
  | addConflict first second => Model.addConflict first second

end Model

end LinearProgram
