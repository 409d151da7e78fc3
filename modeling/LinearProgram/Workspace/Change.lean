import LinearProgram.Workspace.Attributes

/-!
# Changing a workspace

A change through the workspace reaches one model or one named object.  If it fails, what it
had already written stays written.
-/

namespace LinearProgram

/-- An update of a workspace that can fail. -/
abbrev WorkspaceUpdate (α : Type) [Scalar α] (β : Type) := EStateM (Error α) (Workspace α) β

namespace Workspace

variable {α β : Type} [Scalar α]

def assign (name : String) (value : Value α) : WorkspaceUpdate α Unit :=
  modify (fun workspace =>
    { workspace with objects := workspace.objects.insert name (.ofValue value) })

/-- What an update of the heap needs to know of the workspace. -/
def outlook (workspace : Workspace α) : Outlook α where
  see := workspace.presentParticipant
  reckon := workspace.amount
  see_see := workspace.presentParticipant_idem
  see_variable _ := rfl

def onHeap (update : HeapUpdate α β) : WorkspaceUpdate α β := do
  let workspace ← get
  match update workspace.heap with
  | .ok result heap => do
    set { workspace with heap }
    return result
  | .error error heap => do
    set { workspace with heap }
    throw error

/-- Make an expression. -/
def make (making : Heap.Making α) : WorkspaceUpdate α (Value α) := do
  let number ← onHeap (Heap.make (← get).outlook making)
  return .expression number ((← get).expression number)

/-- Create a model, with options as a caller gives them. -/
def createModel (options : Value α) : WorkspaceUpdate α ModelRef := do
  let options ← (← get).asRecord ModelOptions.names (options.orElse .noOptions)
  let options ← ModelOptions.read.require "model options" options
  let reference : ModelRef := ⟨(← get).models.length, options.name⟩
  modify (fun workspace =>
    { workspace with models := workspace.models ++ [Model.new reference options.direction] })
  return reference

/-- A tag that was not given out before. -/
def freshTag : WorkspaceUpdate α Nat := do
  let tag := (← get).tagCount + 1
  modify (fun workspace => { workspace with tagCount := tag })
  return tag

def isNegativeZero : Value α → Bool
  | .number value => Scalar.isNegativeZero value
  | _ => false

/-- Make another handle of a variable, for an index as a caller gives it. -/
def makeVariable (reference : ModelRef) (index : Value α) : WorkspaceUpdate α Variable := do
  return ⟨reference, index.asIndex, ← freshTag, isNegativeZero index⟩

/-- Make another handle of a constraint, for an index as a caller gives it. -/
def makeConstraint (reference : ModelRef) (index : Value α) : WorkspaceUpdate α Constraint := do
  return ⟨reference, index.asIndex, ← freshTag, isNegativeZero index⟩

def putModel (workspace : Workspace α) (model : Model α) : Workspace α :=
  { workspace with models := workspace.models.set model.reference.id model }

def change (reference : ModelRef) (update : ModelUpdate α β) : WorkspaceUpdate α β := do
  let workspace ← get
  match update (workspace.model reference) with
  | .ok result model => do
    set (workspace.putModel model)
    return result
  | .error error model => do
    set (workspace.putModel model)
    throw error

/-- Add a variable to a model, with options as a caller gives them. -/
def addVariable (reference : ModelRef) (options : Value α) : WorkspaceUpdate α Variable := do
  let options ← (← get).asRecord VariableOptions.names options
  change reference (Model.addVariable options)

/-- Add a constraint to a model, with an expression as a caller gives it. -/
def addConstraint (reference : ModelRef) (body : Value α) (name : String) :
    WorkspaceUpdate α Constraint := do
  let foreign : Error α := .foreignExpression body.owner
  let expression ← (← get).constraintBody reference body foreign
  change reference (Model.addConstraint expression name)

/-- Replace a constraint by an expression as a caller gives it. -/
def setExpression (constraint : Constraint) (body : Value α) : WorkspaceUpdate α Unit := do
  let foreign : Error α := .foreignReplacement constraint.index
  let expression ← (← get).constraintBody constraint.model body foreign
  change constraint.model (Model.setExpression constraint.index expression)

/-- Set the right hand side of a constraint to the number for which a value counts. -/
def setRightHandSide (constraint : Constraint) (value : Value α) : WorkspaceUpdate α Unit := do
  change constraint.model
    (Model.setRightHandSide constraint.index (← (← get).amount value))

/-- Load a solution into a model, with data as a caller gives them. -/
def loadSolution (reference : ModelRef) (data : Value α) : WorkspaceUpdate α Unit := do
  let data ← (← get).asRecord SolutionData.names data
  change reference (Model.loadSolution data)

/-- Change a named expression in place and return it.  An object of another type can not be
changed. -/
def edit (name : String) (edit : Expression.Edit α) : WorkspaceUpdate α (Expression α) := do
  let workspace ← get
  match workspace.object? name with
  | some (.expression number _) => do
    onHeap (Heap.edit workspace.outlook number edit)
    return (← get).expression number
  | other => throw (.unsupported (other.getD .missing))

end Workspace

end LinearProgram
