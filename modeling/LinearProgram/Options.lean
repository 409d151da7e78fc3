import LinearProgram.Options.Reading

/-!
# Options

The arguments that are given as records: options of a model and of a variable, and the data
of a solution.  Each has its declared members with their defaults; members that are not
declared are ignored.
-/

namespace LinearProgram

variable {α : Type} [Scalar α]

namespace Reader

/-- A bound: any number, infinite or not. -/
def bound : Reader α α := number

/-- A coefficient of the objective: a finite number. -/
def objective : Reader α α := finiteNumber

/-- A direction, by its code. -/
def direction : Reader α Direction :=
  code (Direction.all.map (fun direction => "'" ++ direction.code ++ "'")) Direction.ofCode?

/-- A kind of variable, by its code. -/
def kind : Reader α VariableKind :=
  code (VariableKind.all.map (fun kind => "'" ++ kind.code ++ "'")) VariableKind.ofCode?

/-- A status, by its code, together with the number that was given for it. -/
def status : Reader α (α × Status)
  | .number value =>
    match Status.ofNumber? value with
    | some status => .good (value, status)
    | none => code statusCodes (fun _ => none) (.number value)
  | other => code statusCodes (fun _ => none) other
where
  statusCodes : List String := Status.all.map (fun status => toString status.code)

end Reader

/-- Options of a model. -/
structure ModelOptions where
  name : String
  direction : Direction
  deriving DecidableEq, Repr

/-- The declared members. -/
def ModelOptions.names : List String := ["name", "sense"]

/-- A model has no name and minimizes unless stated otherwise. -/
def ModelOptions.read : Reader α ModelOptions := .object fun value =>
  ModelOptions.mk <$> Reader.member "name" (Reader.text.withDefault "") value
    <*> Reader.member "sense" (Reader.direction.withDefault .minimize) value

/-- Options of a variable. -/
structure VariableOptions (α : Type) [Scalar α] where
  name : Option String
  lower : α
  upper : α
  objective : α
  kind : VariableKind
  column : Option (Column α)

def VariableOptions.names : List String := ["name", "lb", "ub", "obj", "varType", "column"]

/-- Bounds are in order if the lower one does not exceed the upper one. -/
def boundsOrdered (lower upper : α) : Bool := decide (lower ≤ upper)

def crossedBounds : Issue := ⟨["lb"], .crossedBounds⟩

/-- A variable is continuous, not negative and free of cost unless stated otherwise.  Its bounds are
compared as soon as all members could be read. -/
def VariableOptions.read : Reader α (VariableOptions α) := .object fun value =>
  (VariableOptions.mk <$> Reader.member "name" Reader.text.optional value
    <*> Reader.member "lb" (Reader.bound.withDefault 0) value
    <*> Reader.member "ub" (Reader.bound.withDefault Scalar.infinity) value
    <*> Reader.member "obj" (Reader.objective.withDefault 0) value
    <*> Reader.member "varType" (Reader.kind.withDefault .continuous) value
    <*> Reader.member "column" Reader.column.optional value).satisfying
      (fun options => boundsOrdered options.lower options.upper) crossedBounds.path
      crossedBounds.fault

def boundsRefusal (subject : Value α) : Error α := .invalidOptions subject [crossedBounds]

def checkBounds (lower upper : α) (subject : String) : Except (Error α) Unit :=
  if boundsOrdered lower upper then .ok () else .error (boundsRefusal (.text subject))

/-- The result of an optimization. -/
structure SolutionData (α : Type) where
  /-- The number that was given for the status. -/
  statusNumber : α
  status : Status
  objectiveValue : Option α
  /-- Values of the variables. -/
  values : List α
  /-- Values of the variables in other solutions. -/
  pool : Option (List (List α))
  reducedCosts : Option (List α)
  duals : Option (List α)
  deriving DecidableEq, Repr

def SolutionData.names : List String := ["status", "objectiveValue", "x", "pool", "rc", "pi"]

/-- Only the status has to be given. -/
def SolutionData.read : Reader α (SolutionData α) := .object fun value =>
  (fun status => SolutionData.mk status.1 status.2) <$> Reader.member "status" Reader.status value
    <*> Reader.member "objectiveValue" Reader.number.optional value
    <*> Reader.member "x" ((Reader.list Reader.number).withDefault []) value
    <*> Reader.member "pool" (Reader.list (Reader.list Reader.number)).optional value
    <*> Reader.member "rc" (Reader.list Reader.number).optional value
    <*> Reader.member "pi" (Reader.list Reader.number).optional value

end LinearProgram
