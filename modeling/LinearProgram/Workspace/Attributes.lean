import LinearProgram.Workspace.Texts

/-!
# Objects in place of records

Wherever options are given as a record, an object of the library can be given instead.  Its
attributes then are the members: the name and the bounds of a variable become the name and
the bounds of another one.  Only the attributes that the options declare are read, in the
order of the declaration.  An attribute that can not be read refuses the object as a whole,
before any member is checked.
-/

namespace LinearProgram

variable {α : Type} [Scalar α]

namespace Model

def ownAttribute (model : Model α) (name : String) : Value α :=
  match name with
  | "name" => .text model.reference.name
  | "sense" => .text model.direction.code
  | "status" => .number model.statusNumber
  | "objectiveValue" => .known model.objectiveValue
  | "constrs" =>
    .list (model.constraintHandles.map .constraint) 0
  | _ => .missing

/-- An attribute of a variable.  What is in the table can be read only if the variable is, and its
column only if the coefficients are finite. -/
def variableAttribute (model : Model α) (index : Index) (name : String) :
    Except (Error α) (Value α) :=
  match name with
  | "name" => (index.entry model.variableTable).map (fun data => .text data.name)
  | "lb" => (model.requireBounds index).map (fun bounds => .number bounds.1)
  | "ub" => (model.requireBounds index).map (fun bounds => .number bounds.2)
  | "obj" => .ok (.number (model.objectiveCoefficient index))
  | "varType" => (index.entry model.variableTable).map (fun data => data.kind.toValue)
  | "column" => (model.column index).map (Value.column 0)
  | "rc" => .ok (.known (model.reducedCost index))
  | "x" => .ok (.known (model.value index))
  | _ => .ok .missing

def constraintAttribute (model : Model α) (index : Index) (name : String) :
    Except (Error α) (Value α) :=
  match name with
  | "name" => (index.entry model.constraintTable).map (fun data => .text data.name)
  | "pi" => .ok (.known (model.dual index))
  | _ => .ok .missing

end Model

namespace Workspace

def expressionAttribute (workspace : Workspace α) (expression : Expression α) (name : String) :
    Except (Error α) (Value α) :=
  match name with
  | "sense" => .ok (.text expression.relation.mark)
  | "x" => (workspace.value expression).map Value.known
  | _ => .ok .missing

/-- An attribute of an object, or a member of a record. -/
def attributeOf (workspace : Workspace α) (value : Value α) (name : String) :
    Except (Error α) (Value α) :=
  match value with
  | .model reference => .ok ((workspace.model reference).ownAttribute name)
  | .handle handle => (workspace.model handle.model).variableAttribute handle.index name
  | .constraint constraint =>
    (workspace.model constraint.model).constraintAttribute constraint.index name
  | .expression _ expression => workspace.expressionAttribute expression name
  | other => .ok (other.member name)

/-- The record of some attributes of an object.  Any other value is as it is. -/
def asRecord (workspace : Workspace α) (names : List String) (value : Value α) :
    Except (Error α) (Value α) :=
  if value.isObject then
    (names.mapM (fun name =>
      (workspace.attributeOf value name).map (fun member => (name, member)))).map (Value.record · 0)
  else .ok value

/-- Whatever has the entries of a column: a column, or else a record. -/
def asColumn (workspace : Workspace α) (value : Value α) : Except (Error α) (Value α) :=
  match value with
  | .column _ _ => .ok value
  | other => workspace.asRecord ["constrs", "coeffs"] other

/-- The related expression that a constraint is made of.  Anything that is no expression is refused,
first for a relation that is none, then for a model that is another one. -/
def constraintBody (workspace : Workspace α) (reference : ModelRef) (value : Value α)
    (foreign : Error α) : Except (Error α) (Expression α) :=
  match value with
  | .expression _ expression => .ok expression
  | other =>
    match workspace.attributeOf other "sense" with
    | .ok (.text "") => .error .noRelation
    | _ =>
      if other.owner = .nobody || other.owner = .model reference then .error (.unsupported other)
      else .error foreign

end Workspace

end LinearProgram
