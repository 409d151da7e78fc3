import LinearProgram.Model.Basic

/-!
# Conflicts

Two assignments of binary variables are in conflict if they can not hold at once: because
they fix one variable at both values, because they were recorded as excluding each other, or
because a constraint is violated however the other variables of its row move within their
bounds.

For the last reason the extreme activities of the row are computed with the two variables
fixed.  A row is violated for certain if its least activity is above the right hand side, or
its greatest below it, by more than the tolerance.
-/

namespace LinearProgram.Model

variable {α : Type} [Scalar α]

/-- Whether two assignments were recorded as excluding each other, in either order. -/
def recorded (model : Model α) (first second : Assignment) : Bool :=
  model.conflicts.contains (first.pairKey α second)

/-- The part of a row's activity that two assignments fix. -/
def fixedActivity (row : Row α) (first second : Assignment) : α :=
  row.coefficient first.index * first.value + row.coefficient second.index * second.value

/-- The cells of a row that two assignments leave free. -/
def freeCells (row : Row α) (first second : Assignment) : List (Index × α) :=
  row.cells.toList.filter (fun cell => cell.1 ≠ first.index && cell.1 ≠ second.index)

/-- The least contribution of a cell while its variable stays within its bounds. -/
def leastOf (model : Model α) (cell : Index × α) : α :=
  Scalar.smaller (cell.2 * (model.bounds cell.1).1) (cell.2 * (model.bounds cell.1).2)

/-- The greatest contribution of a cell while its variable stays within its bounds. -/
def greatestOf (model : Model α) (cell : Index × α) : α :=
  Scalar.larger (cell.2 * (model.bounds cell.1).1) (cell.2 * (model.bounds cell.1).2)

/-- The least activity of a row while two assignments hold. -/
def leastActivity (model : Model α) (row : Row α) (first second : Assignment) : α :=
  (freeCells row first second).foldl (fun total cell => total + model.leastOf cell)
    (fixedActivity row first second)

/-- The greatest activity of a row while two assignments hold. -/
def greatestActivity (model : Model α) (row : Row α) (first second : Assignment) : α :=
  (freeCells row first second).foldl (fun total cell => total + model.greatestOf cell)
    (fixedActivity row first second)

/-- Whether a relation to a right hand side fails for all activities between two extremes. -/
def unreachable (relation : Relation) (least greatest rightHandSide : α) : Bool :=
  let above := decide (rightHandSide + Scalar.tolerance < least)
  let below := decide (greatest < rightHandSide - Scalar.tolerance)
  match relation with
  | .atMost => above
  | .atLeast => below
  | .equal => above || below
  | .affine => false

/-- Whether a constraint rules out that two assignments hold at once.  It has to contain
both variables. -/
def excludes (model : Model α) (data : ConstraintRecord α) (first second : Assignment) : Bool :=
  if data.row.coefficient first.index == 0 || data.row.coefficient second.index == 0 then false
  else
    unreachable data.relation (model.leastActivity data.row first second)
      (model.greatestActivity data.row first second) (-data.row.constant)

def conflicting (model : Model α) (first second : Assignment) : Bool :=
  if first.index.same second.index then first.positive != second.positive
  else
    model.recorded first second
      || model.constraintTable.any (fun data => model.excludes data first second)

/-- The binary variables, other than that of an assignment, whose assignment to a value is
in conflict with it. -/
def conflictsAt (model : Model α) (assignment : Assignment) (positive : Bool) : List Nat :=
  (List.range model.columnCount).filter (fun position =>
    .place position ≠ assignment.index && (model.kind (.place position)).isBinary
      && model.conflicting assignment ⟨positive, .place position⟩)

/-- Whether a participant is a variable that is binary, or states to be one.  A variable has to be
in the table. -/
def isBinary (model : Model α) (participant : Participant) : Except (Error α) Bool :=
  match participant.role with
  | .ofVariable _ _ =>
    (participant.index.entry model.variableTable).map (fun data => data.kind.isBinary)
  | .stranger statement => .ok statement.binary
  | .ofConstraint _ _ | .ofExpression _ _ => .ok false

/-- Refuse a literal of another model, or of anything but a binary variable. -/
def requireBinary (model : Model α) (literal : Literal) : Except (Error α) Unit := do
  if literal.participant.owner ≠ .model model.reference then
    throw (.foreignVariable literal.participant.index)
  unless ← model.isBinary literal.participant do throw (.notBinary literal.participant)

/-- Whether a constraint rules out two assignments, once the bounds of all other variables in its
row were found. -/
def findExclusion (model : Model α) (data : ConstraintRecord α) (first second : Assignment) :
    Except (Error α) Bool := do
  if data.row.coefficient first.index == 0 || data.row.coefficient second.index == 0 then
    return false
  (freeCells data.row first second).forM (fun cell => discard (model.requireBounds cell.1))
  return model.excludes data first second

/-- Whether two assignments are in conflict.  Rows are looked at until one excludes them. -/
def findConflict (model : Model α) (first second : Assignment) : Except (Error α) Bool :=
  if first.index.same second.index then .ok (first.positive != second.positive)
  else if model.recorded first second then .ok true
  else model.constraintTable.anyM (fun data => model.findExclusion data first second)

/-- The binary variables, found by their handles, whose assignment to a value is in conflict with
another assignment. -/
def findConflicts (model : Model α) (assignment : Assignment) (positive : Bool) :
    Except (Error α) (List Nat) :=
  (List.range model.columnCount).filterM (fun position => do
    if .place position = assignment.index || !(model.kind (.place position)).isBinary then
      return false
    let other ← (Index.place position).entry model.variableHandles
    model.findConflict assignment ⟨positive, other.index⟩)

end LinearProgram.Model
