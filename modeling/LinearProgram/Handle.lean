import LinearProgram.Sorting.Merging
import LinearProgram.Title

/-!
# Handles

Variables and constraints live in the tables of a model.  Everything outside the model
refers to them by handles: the model and an index.  A handle may be made for any index, also
for one at which the table has nothing.

What takes part in an expression, a column or a literal is asked for its owner and its index only.
That is usually a handle of a variable or of a constraint, and either may stand where the other one
is meant.  Anything else can take part too: what it does not state is absent.

An expression can take part in another one.  It then belongs to the owner of its own terms, and that
may change.  Such a participant is known by the number of the expression.  Its owner, and how it is
written, are as they were when it was last looked at.
-/

namespace LinearProgram

/-- A handle of a variable.  Several handles may refer to one variable; their tags keep them
apart, and the handle that the model itself keeps has tag zero. -/
structure Variable where
  model : ModelRef
  index : Index
  tag : Nat := 0
  /-- The handle was made for negative zero, which is filed as zero. -/
  negative : Bool := false
  deriving DecidableEq, Repr

/-- A handle of a constraint, with the same distinctions as one of a variable. -/
structure Constraint where
  model : ModelRef
  index : Index
  tag : Nat := 0
  negative : Bool := false
  deriving DecidableEq, Repr

/-- Something that a participant states as its model. -/
inductive Owner where
  | model (reference : ModelRef)
  /-- No model was stated. -/
  | nobody
  /-- Something else stands in the place of a model. -/
  | other (stated : Index) (name : Title)
  deriving DecidableEq, Repr

namespace Owner

def title : Owner → Title
  | model reference => .text reference.name
  | nobody => .unknown
  | other _ name => name

/-- Whether two owners are the same.  What stands in the place of a model is compared like an
index. -/
def same : Owner → Owner → Bool
  | model first, model second => first = second
  | nobody, nobody => true
  | other first _, other second _ => first.same second
  | _, _ => false

@[simp]
theorem same_model (first second : ModelRef) :
    same (model first) (model second) = decide (first = second) := rfl

end Owner

/-- A number, where the sign of zero counts. -/
structure Amount where
  index : Index
  /-- The number is negative zero, which is filed as zero. -/
  negative : Bool := false
  deriving DecidableEq, Repr

def Amount.number {α : Type} [Scalar α] (amount : Amount) : α :=
  if amount.negative then -0 else amount.index.number

/-- A number that is stated as such, or in writing. -/
inductive Quantity where
  | amount (amount : Amount)
  | written (title : Title)
  deriving DecidableEq, Repr

def Quantity.number {α : Type} [Scalar α] (naming : Naming) : Quantity → α
  | amount stated => stated.number
  | written title => Text.number (title.write naming)

/-- What has to be written before a quantity can be read. -/
def Quantity.title : Quantity → Title
  | amount _ => .text ""
  | written title => title

/-- What something else than a handle or an expression states. -/
structure Statement where
  /-- By this it is told from everything else. -/
  mark : Index
  name : Title := .unknown
  /-- The number that it states as its value. -/
  value : Option Quantity := none
  /-- It states that it is binary. -/
  binary : Bool := false
  /-- How it is written with all that it holds. -/
  written : String := ""
  deriving DecidableEq, Repr

/-- What a participant is, apart from its owner and index. -/
inductive Role where
  | ofVariable (tag : Nat) (negative : Bool)
  | ofConstraint (tag : Nat) (negative : Bool)
  | ofExpression (number : Nat) (written : String)
  | stranger (statement : Statement)
  deriving DecidableEq, Repr

/-- What takes part in an expression, a column or a literal. -/
structure Participant where
  owner : Owner
  index : Index
  role : Role
  deriving DecidableEq, Repr

def Variable.participant (handle : Variable) : Participant :=
  ⟨.model handle.model, handle.index, .ofVariable handle.tag handle.negative⟩

def Constraint.participant (handle : Constraint) : Participant :=
  ⟨.model handle.model, handle.index, .ofConstraint handle.tag handle.negative⟩

/-- What tells a handle of a variable from everything else. -/
def Variable.identity (handle : Variable) : Identity :=
  if handle.tag = 0 then .keptVariable handle.model.id (handle.index.position?.getD 0)
  else .tagged handle.tag

/-- What tells a handle of a constraint from everything else. -/
def Constraint.identity (handle : Constraint) : Identity :=
  if handle.tag = 0 then .keptConstraint handle.model.id (handle.index.position?.getD 0)
  else .tagged handle.tag

/-- The handle that a model itself keeps for an index. -/
def ModelRef.variable (reference : ModelRef) (index : Index) : Variable :=
  { model := reference, index }

namespace Participant

/-- Whether two participants refer to the same thing. -/
def same (first second : Participant) : Bool :=
  first.owner.same second.owner && first.index.same second.index

/-- Whether two participants are one: the same handle, the same expression, or otherwise the same
thing. -/
def identical (first second : Participant) : Bool :=
  match first.role, second.role with
  | .ofExpression number _, .ofExpression counterpart _ => number = counterpart
  | .stranger statement, .stranger counterpart => statement.mark = counterpart.mark
  | _, _ => first = second

def title (participant : Participant) : Title :=
  match participant.role, participant.owner with
  | .ofVariable _ _, .model reference => .variableName reference participant.index
  | .ofConstraint _ _, .model reference => .constraintName reference participant.index
  | .stranger statement, _ => statement.name
  | _, _ => .unknown

/-- The number for which a participant was made. -/
def number {α : Type} [Scalar α] (participant : Participant) : α :=
  match participant.role with
  | .ofVariable _ negative | .ofConstraint _ negative => Amount.number ⟨participant.index, negative⟩
  | .ofExpression _ _ | .stranger _ => participant.index.number

/-- How a participant is written with all that it holds.  Handles show nothing of their tables. -/
def written (participant : Participant) : String :=
  match participant.role with
  | .ofExpression _ written => written
  | .stranger statement => statement.written
  | .ofVariable _ _ | .ofConstraint _ _ => "\x7b\x7d"

/-- Participants in the order of their indices. -/
def sort (α : Type) [Scalar α] (participants : List Participant) : List Participant :=
  Sorting.sort (fun first second => first.index.before α second.index) participants

end Participant

end LinearProgram
