import LinearProgram.Workspace.Present

/-!
# Values that have to be written

Where a number is meant, a list or an object counts by its text; so it does in a message.  A
constraint that can not be written has none, and neither has anything that is called by the text of
such a constraint.  Whatever needs the text is then refused for the reason why the constraint can
not be written, and that reason also replaces a refusal whose own message would have shown the text.
-/

namespace LinearProgram.Workspace

variable {α : Type} [Scalar α]

/-- Why a constraint can not be written. -/
def constraintObstacle? (workspace : Workspace α) (reference : ModelRef) (index : Index) :
    Option (Error α) :=
  match (workspace.model reference).renderConstraint index with
  | .ok _ => none
  | .error reason => some reason

/-- Why an expression can not be written, if what takes part in it is called by the texts of other
expressions no more than so many times over. -/
def expressionObstacle? (workspace : Workspace α) : Nat → Nat → Option (Error α)
  | 0, _ => none
  | steps + 1, number =>
    (workspace.heap.read? number).bind (fun expression =>
      expression.titles.findSome? (Title.obstacle? workspace.constraintObstacle?
        (workspace.expressionObstacle? steps)))

/-- Why a title can not be written. -/
def obstacle? (workspace : Workspace α) (title : Title) : Option (Error α) :=
  title.obstacle? workspace.constraintObstacle?
    (workspace.expressionObstacle? (workspace.heap.size + 1))

def write (workspace : Workspace α) (title : Title) : Except (Error α) String :=
  match workspace.obstacle? title with
  | some reason => .error reason
  | none => .ok (title.write workspace.naming)

def render (workspace : Workspace α) (expression : Expression α) : Except (Error α) String :=
  match expression.titles.findSome? workspace.obstacle? with
  | some reason => .error reason
  | none => .ok (expression.render workspace.naming.name)

/-- The error that is reported: the one that occurred, unless its message can not be written. -/
def reported (workspace : Workspace α) (error : Error α) : Error α :=
  ((error.shownTitles workspace.naming).findSome? workspace.obstacle?).getD error

/-- A value without its inner structure. -/
def flat (workspace : Workspace α) (value : Value α) : Except (Error α) (Value α) :=
  (workspace.write value.title).map (fun _ => workspace.naming.flat value)

/-- The first obstacle to reading the values of terms.  Nothing is read after a term without a
value. -/
def firstObstacle? (obstacle : Participant → Option (Error α)) (value : Participant → Option α) :
    List (Term α) → Option (Error α)
  | [] => none
  | term :: rest =>
    (obstacle term.participant).or
      (if (value term.participant).isSome then firstObstacle? obstacle value rest else none)

/-- Why the value of a participant can not be read, found in so many steps at most.  The value that
it states may have to be written first. -/
def valueObstacle? (workspace : Workspace α) : Nat → Participant → Option (Error α)
  | steps, participant =>
    match participant.role, steps with
    | .stranger statement, _ => statement.value.bind (fun value => workspace.obstacle? value.title)
    | .ofExpression number _, steps + 1 =>
      (workspace.heap.read? number).bind (fun expression =>
        firstObstacle? (valueObstacle? workspace steps) (workspace.valueWithin steps)
          expression.termList)
    | _, _ => none

/-- Something that is computed from the values of an expression's terms, unless one of them can not
be read. -/
def evaluate {β : Type} (workspace : Workspace α) (expression : Expression α)
    (result : (Participant → Option α) → Except (Error α) β) : Except (Error α) β :=
  match firstObstacle? (workspace.valueObstacle? workspace.heap.size)
      workspace.participantValue expression.termList with
  | some reason => .error reason
  | none => result workspace.participantValue

def value (workspace : Workspace α) (expression : Expression α) :
    Except (Error α) (Option α) :=
  workspace.evaluate expression (fun assignment => .ok (expression.value assignment))

def violation (workspace : Workspace α) (expression : Expression α) :
    Except (Error α) (Option α) :=
  workspace.evaluate expression expression.violation

def amount (workspace : Workspace α) (value : Value α) : Except (Error α) α :=
  (workspace.flat value).map Value.amount

def nearZero (workspace : Workspace α) (value : Value α) : Except (Error α) Bool :=
  (workspace.amount value).map Scalar.nearZero

/-- Whether one value may be a lower bound where another one is the upper bound.  Two texts are
compared as texts, all else as numbers. -/
def inOrder (lower upper : Value α) : Bool :=
  match lower, upper with
  | .text lower, .text upper => Text.atMost lower upper
  | lower, upper => boundsOrdered lower.amount upper.amount

def checkBounds (workspace : Workspace α) (lower upper subject : Value α) :
    Except (Error α) Unit := do
  let lower ← workspace.flat lower
  let upper ← workspace.flat upper
  unless inOrder lower upper do throw (boundsRefusal subject)

end LinearProgram.Workspace
