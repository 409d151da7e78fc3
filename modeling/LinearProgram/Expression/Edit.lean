import LinearProgram.Value.Accepted

/-!
# Changing an expression in place

Every change is an update of the expression that can fail.  Sums are checked before they are
stored: a coefficient or a constant that would stop being finite is refused, and so is a
variable of another model.  A term whose coefficient comes within the zero tolerance is
dropped; added again, it goes to the end.

A term keeps the participant with which it was first added for as long as it is present.
-/

namespace LinearProgram

variable {α : Type} [Scalar α]

namespace Terms

/-- Add a multiple of a participant.  Its owner is compared with that of the oldest term. -/
def add (terms : Terms α) (participant : Participant) (coefficient : α) :
    Except (Error α) (Terms α) := do
  let coefficient ← finite coefficient
  if terms.owner?.any (fun owner => !owner.same participant.owner) then
    throw (.foreignTerm participant.index)
  let present := terms.get? participant.index
  let sum ← finite ((present.map Term.coefficient).getD 0 + coefficient)
  return if Scalar.nearZero sum then terms.erase participant.index
    else terms.insert participant.index ⟨(present.map Term.participant).getD participant, sum⟩

/-- Add the multiples of a list of terms, in order. -/
def addScaled (terms : Terms α) (added : List (Term α)) (factor : α) :
    Except (Error α) (Terms α) :=
  added.foldlM (fun sum term => sum.add term.participant (term.coefficient * factor)) terms

end Terms

/-- An update of an expression that can fail. -/
abbrev ExpressionUpdate (α : Type) [Scalar α] := EStateM (Error α) (Expression α)

namespace Expression

def after (expression : Expression α) (update : ExpressionUpdate α Unit) :
    Except (Error α) (Expression α) :=
  match update expression with
  | .ok _ updated => .ok updated
  | .error error _ => .error error

def addConstant (amount : α) : ExpressionUpdate α Unit := do
  let amount ← finite amount
  let expression ← get
  let constant ← finite (expression.constant + amount)
  set { expression with constant }

def addTerm (participant : Participant) (coefficient : α) : ExpressionUpdate α Unit := do
  let expression ← get
  let terms ← expression.terms.add participant coefficient
  set { expression with terms }

/-- Refuse to combine expressions of different models. -/
def requireOneModel (expression other : Expression α) : Except (Error α) Unit :=
  match expression.owner?, other.owner? with
  | some ours, some theirs => if ours.same theirs then .ok () else .error .mixedModels
  | _, _ => .ok ()

/-- Add a multiple of another expression, whose relation does not count.  Nothing is changed unless
the constant and all terms are accepted. -/
def addExpression (other : Expression α) (factor : α) : ExpressionUpdate α Unit := do
  let factor ← finite factor
  let expression ← get
  requireOneModel expression other
  let product ← finite (other.constant * factor)
  let constant ← finite (expression.constant + product)
  let terms ← expression.terms.addScaled other.termList factor
  set { expression with terms, constant }

/-- Add a multiple of an expression that is given as a value.  Whatever states a constant and an
owner is taken for an expression until its terms are asked for. -/
def addContents (reckon : Reckoning α) (other : Value α) (factor : α) :
    ExpressionUpdate α Unit := do
  match other with
  | .expression _ other => addExpression other factor
  | other =>
    let factor ← finite factor
    let expression ← get
    if expression.owner?.any (fun ours => other.owner ≠ .nobody && !ours.same other.owner) then
      throw .mixedModels
    let product ← finite ((← reckon other.constant) * factor)
    let _ ← finite (expression.constant + product)
    throw (.unsupported other)

/-- Add a multiple of a number, a variable or an expression. -/
def addMultiple (term : Value α) (factor : α) : ExpressionUpdate α Unit := do
  let factor ← finite factor
  match term with
  | .number amount => addConstant (amount * factor)
  | .handle handle => addTerm handle.participant factor
  | .expression _ other => addExpression other factor
  | other => throw (.unsupported other)

def scale (factor : α) : ExpressionUpdate α Unit := do
  let factor ← finite factor
  let expression ← get
  let constant ← finite (expression.constant * factor)
  let terms ← Terms.addScaled OrderedMap.empty expression.termList factor
  set { expression with terms, constant }

/-- Relate the expression to zero as a value says. -/
def setRelation (value : Value α) : ExpressionUpdate α Unit := do
  let relation ← value.relation
  modify (fun expression => { expression with relation })

/-- Put an expression together from a constant and multiples of participants, added in order. -/
def assemble (terms : List (Participant × α)) (constant : α) (relation : Relation) :
    Except (Error α) (Expression α) := do
  let constant ← finite constant
  let terms ← terms.foldlM (fun sum term => Terms.add sum term.1 term.2) OrderedMap.empty
  return { terms, constant, relation }

/-- Add a multiple of a participant to terms, both as a caller gives them.  A missing coefficient
counts as one. -/
def join (sum : Terms α) (term : Value α × Value α) : Except (Error α) (Terms α) := do
  let coefficient ← (term.2.orElse (.number 1)).finite
  sum.add (← term.1.participant) coefficient

/-- Add so many items from a position on. -/
def joinFrom (handles coefficients : Value α) : Nat → Nat → Terms α → Except (Error α) (Terms α)
  | _, 0, sum => .ok sum
  | position, count + 1, sum => do
    let sum ← join sum (handles.item position, coefficients.item position)
    joinFrom handles coefficients (position + 1) count sum

/-- The number of positions below a length. -/
def positions (length : α) : Nat :=
  ((Scalar.rational? length).map (fun number => number.ceil.toNat)).getD 0

/-- The terms of variables paired with coefficients.  The two are lists, or whatever else has items
and as many as the other one. -/
def joinAll (reckon : Reckoning α) (handles coefficients : Value α) :
    Except (Error α) (Terms α) :=
  match handles, coefficients with
  | .list handles _, .list coefficients _ =>
    (handles.zip coefficients).foldlM join OrderedMap.empty
  | _, _ => do
    joinFrom handles coefficients 0 (positions (← reckon handles.length)) OrderedMap.empty

/-- Build an expression from variables paired with coefficients, a constant and a relation.
The lengths are compared first, then the constant is checked, then the relation, and the terms
last. -/
def build (reckon : Reckoning α) (handles coefficients constant relation : Value α) :
    Except (Error α) (Expression α) := do
  unless handles.length.identical coefficients.length do
    throw (.termCount handles.length coefficients.length)
  let constant ← constant.finite
  let relation ← relation.relation
  let terms ← joinAll reckon handles coefficients
  return { terms, constant, relation }

/-- A change of an expression, with its arguments as a caller gives them. -/
inductive Edit (α : Type) [Scalar α] where
  | addConstant (amount : Value α)
  | addVariable (handle coefficient : Value α)
  | addExpression (other factor : Value α)
  | addMultiple (term factor : Value α)
  | scale (factor : Value α)
  | setRelation (relation : Value α)

/-- Carry out a change.  A factor is looked at before anything else. -/
def Edit.apply (reckon : Reckoning α) : Edit α → ExpressionUpdate α Unit
  | addConstant amount => do Expression.addConstant (← amount.scalar "add")
  | addVariable handle coefficient => do
    let coefficient ← coefficient.finite
    Expression.addTerm (← handle.participant) coefficient
  | addExpression other factor => do
    Expression.addContents reckon other (← factor.scalar "multiply")
  | addMultiple term factor => do Expression.addMultiple term (← factor.scalar "multiply")
  | scale factor => do Expression.scale (← factor.scalar "multiply")
  | setRelation relation => Expression.setRelation relation

end Expression

end LinearProgram
