import LinearProgram.Handle
import LinearProgram.OrderedMap
import LinearProgram.Scalar
import LinearProgram.Vocabulary

/-!
# Affine expressions

A sum of variable terms and a constant, possibly related to zero.  Terms are filed under the
index of their variable, in the order in which they were first added.  A related expression
is the body of a constraint, with minus its constant as the right hand side.
-/

namespace LinearProgram

/-- A variable, or whatever takes its place, with its coefficient. -/
structure Term (α : Type) where
  participant : Participant
  coefficient : α
  deriving DecidableEq, Repr

/-- The terms of an expression, filed under the index of their variable. -/
abbrev Terms (α : Type) := OrderedMap Index (Term α)

/-- The owner of the oldest term. -/
def Terms.owner? {α : Type} (terms : Terms α) : Option Owner :=
  terms.first?.map (fun term => term.participant.owner)

/-- A sum of terms and a constant, related to zero. -/
structure Expression (α : Type) where
  terms : Terms α := OrderedMap.empty
  constant : α
  relation : Relation := .affine
  deriving DecidableEq, Repr

namespace Expression

variable {α : Type}

/-- The terms, oldest first. -/
def termList (expression : Expression α) : List (Term α) := expression.terms.values

/-- What the variables are called, oldest term first. -/
def titles (expression : Expression α) : List Title :=
  expression.termList.map (fun term => term.participant.title)

def size (expression : Expression α) : Nat := expression.terms.size

def isConstant (expression : Expression α) : Bool := expression.terms.size == 0

/-- The model whose variables the expression uses, if they belong to anybody. -/
def owner? (expression : Expression α) : Option Owner :=
  expression.terms.owner?.filter (fun owner => owner ≠ .nobody)

/-- The term of a participant: filed under its index and of its owner. -/
def term? (expression : Expression α) (participant : Participant) : Option (Term α) :=
  (expression.terms.get? participant.index).filter
    (fun term => term.participant.owner.same participant.owner)

def has (expression : Expression α) (participant : Participant) : Bool :=
  (expression.term? participant).isSome

/-- The coefficient of a participant, zero if it does not occur. -/
def coefficient [Scalar α] (expression : Expression α) (participant : Participant) : α :=
  ((expression.term? participant).map Term.coefficient).getD 0

/-- The coefficients by participant. -/
def snapshot (expression : Expression α) : List (Participant × α) :=
  expression.termList.map (fun term => (term.participant, term.coefficient))

/-- The coefficient in the snapshot.  A term is found only under the very participant that it was
built from. -/
def recorded? (expression : Expression α) (participant : Participant) : Option α :=
  (expression.snapshot.find? (fun entry => entry.1.identical participant)).map Prod.snd

/-- Replace what takes part. -/
def map (replace : Participant → Participant) (expression : Expression α) : Expression α :=
  { expression with
    terms := expression.terms.map (fun term =>
      { term with participant := replace term.participant }) }

end Expression

end LinearProgram
