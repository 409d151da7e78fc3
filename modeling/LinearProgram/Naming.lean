import LinearProgram.Value.Basic

/-!
# What messages call a value

Variables and constraints are called by names, and names are kept in models.  A message is
written where the models are at hand; all that it needs from them is a naming, by which titles
become texts.

A message shows a value as a plain text, or it only states the type of the value.  A record may
state its own type: it then has a member that is called its constructor, and its type has the
name of that constructor.  Nothing makes sure that such a name is a text, so the name of a type
is a value again.
-/

namespace LinearProgram.Naming

variable {α : Type} [Scalar α]

def name (naming : Naming) (participant : Participant) : String := participant.title.write naming

/-- A value as a plain text. -/
def plain (naming : Naming) (value : Value α) : String := value.title.write naming

/-- A value without its inner structure: lists, records and objects are replaced by their texts. -/
def flat (naming : Naming) (value : Value α) : Value α :=
  match value with
  | .list _ _ | .record _ _ => .text (naming.plain value)
  | other => if other.isObject then .text (naming.plain other) else other

/-- The name of a value that is used as a constructor. -/
def ownName (naming : Naming) : Value α → Value α
  | .record members tag => (Value.record members tag).member "name"
  | .model reference => .text reference.name
  | .handle value => .text (naming.name value.participant)
  | .constraint value => .text (naming.name value.participant)
  | _ => .missing

/-- The name of the type of a record, from the constructor that it states.  A void constructor
leaves the record without a type of its own. -/
def constructedType (naming : Naming) : Option (Value α) → Value α
  | none => .text "Object"
  | some given => if given.isVoid then .text "object" else naming.ownName given

def typeOf (naming : Naming) : Value α → Value α
  | .missing => .text "undefined"
  | .null => .text "null"
  | .truth _ => .text "boolean"
  | .number _ => .text "number"
  | .text _ => .text "string"
  | .list _ _ => .text "Array"
  | .record members tag => naming.constructedType ((Value.record members tag).member? "constructor")
  | .model _ => .text "Model"
  | .handle _ => .text "Var"
  | .expression _ _ => .text "LinExpr"
  | .constraint _ => .text "Constr"
  | .column _ _ => .text "Column"
  | .row _ _ => .text "Row"

end LinearProgram.Naming
