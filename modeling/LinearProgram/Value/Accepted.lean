import LinearProgram.Error
import LinearProgram.Value.Participant

/-!
# What operations accept

An operation takes a number, a relation or a kind of variable out of a value, or refuses the
value.  Arithmetic needs some number, and refuses the type of anything else.  Where a number is
stored, it has to be finite, and whatever came instead is refused as it is.
-/

namespace LinearProgram

/-- A way to take any value for a number.  That may need the text of the value, and there may be
none. -/
abbrev Reckoning (α : Type) [Scalar α] := Value α → Except (Error α) α

namespace Value

variable {α : Type} [Scalar α]

/-- The number that a named operation needs. -/
def scalarFor (value operation : Value α) : Except (Error α) α :=
  match value with
  | number value => .ok value
  | other => .error (.notScalar operation other)

def scalar (operation : String) (value : Value α) : Except (Error α) α :=
  value.scalarFor (.text operation)

/-- The finite number that is to be stored. -/
def finite : Value α → Except (Error α) α
  | number value => LinearProgram.finite value
  | other => .error (.notFinite other)

def relation : Value α → Except (Error α) Relation
  | text mark =>
    match Relation.ofMark? mark with
    | some relation => .ok relation
    | none => .error (.invalidRelation (text mark))
  | other => .error (.invalidRelation other)

/-- What takes part where a handle is meant. -/
def participant (value : Value α) : Except (Error α) Participant :=
  match value.participant? with
  | some participant => .ok participant
  | none => .error (.unsupported value)

def isRelation : Value α → Bool
  | text mark => (Relation.ofMark? mark).isSome
  | _ => false

def variableKind : Value α → Except (Error α) VariableKind
  | text code =>
    match VariableKind.ofCode? code with
    | some kind => .ok kind
    | none => .error (.invalidKind (text code))
  | other => .error (.invalidKind other)

def isVariableKind : Value α → Bool
  | text code => (VariableKind.ofCode? code).isSome
  | _ => false

end Value

end LinearProgram
