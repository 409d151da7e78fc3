import LinearProgram.Value.Written

/-!
# Values as participants

Where a handle is meant, a value is asked for what a handle has: an index, a model, a name.  A
record answers by its members.  A value that is neither a handle nor a record usually has no answer,
and takes part all the same.
-/

namespace LinearProgram.Value

variable {α : Type} [Scalar α]

/-- The index for which a value stands.  Two values stand for one index exactly if they are the
same, apart from undefined numbers, which all stand for one. -/
def asIndex : Value α → Index
  | missing => .absent
  | null => .label .void
  | truth value => .label (.truth value)
  | number value => .ofNumber value
  | text value => .label (.text value)
  | list items tag => .label (.object (.tagged tag) (list items tag).ownText)
  | record _ tag | column tag _ | row tag _ => object (.tagged tag)
  | model reference => object (.model reference.id)
  | handle value => object value.identity
  | constraint value => object value.identity
  | expression place _ => object (.expression place)
where
  object (identity : Identity) : Index := .label (.object identity "[object Object]")

def index : Value α → Index
  | handle value => value.index
  | constraint value => value.index
  | other => (other.member "idx").asIndex

/-- What a value states as its name. -/
def ownTitle : Value α → Title
  | model reference => .text reference.name
  | handle value => value.participant.title
  | constraint value => value.participant.title
  | other => (other.member "name").title

/-- The owner for which a value stands; a missing one stands for nobody. -/
def asOwner : Value α → Owner
  | missing => .nobody
  | model reference => .model reference
  | other => .other other.asIndex other.ownTitle

def owner : Value α → Owner
  | handle value => .model value.model
  | constraint value => .model value.model
  | expression _ value => value.owner?.getD .nobody
  | other => (other.member "model").asOwner

/-- The number that orders a value among handles; what states no index is not ordered. -/
def rank : Value α → α
  | handle value => value.participant.number
  | constraint value => value.participant.number
  | other => (other.member "idx").amount

/-- The number for which a value counts, if there is a value.  Texts, lists and objects count for
the numbers that they write. -/
def quantity? (value : Value α) : Option Quantity :=
  match value with
  | missing => none
  | null | truth _ | number _ =>
    some (.amount ⟨.ofNumber value.amount, Scalar.isNegativeZero value.amount⟩)
  | other => some (.written other.title)

/-- What a value states that is neither a handle nor an expression. -/
def statement (value : Value α) : Statement where
  mark := value.asIndex
  name := value.ownTitle
  value := (value.member "x").quantity?
  binary := (value.member "varType").identical (.text VariableKind.binary.code)
  written := value.written?.getD ""

def role : Value α → Role
  | handle value => value.participant.role
  | constraint value => value.participant.role
  | expression place value => .ofExpression place ((expression place value).written?.getD "")
  | other => .stranger other.statement

/-- What takes part where a value is given.  Void values take part nowhere. -/
def participant? (value : Value α) : Option Participant :=
  match value with
  | missing | null => none
  | other => some ⟨other.owner, other.index, other.role⟩

end LinearProgram.Value
