import LinearProgram.Workspace.Basic

/-!
# Values as they are now

An expression can be changed after it was given to something else, so a value that holds an
expression is brought up to date whenever it is looked at.  The same goes for what takes part in
expressions and columns: an expression that takes part in another one belongs to the owner of its
oldest term, and has the value that its terms have.

The oldest term may itself be an expression, and so on.  There are not more steps than expressions
unless an expression takes part in itself.  Such an expression has no value, and its owner is the
one that was found before.
-/

namespace LinearProgram.Workspace

variable {α : Type} [Scalar α]

/-- The owner of a participant, found in so many steps at most. -/
def ownerWithin (workspace : Workspace α) : Nat → Participant → Owner
  | 0, participant => participant.owner
  | steps + 1, participant =>
    match participant.role with
    | .ofExpression number _ =>
      match (workspace.heap.read? number).bind (fun expression => expression.terms.first?) with
      | some term => ownerWithin workspace steps term.participant
      | none => .nobody
    | _ => participant.owner

/-- The value of a participant, found in so many steps at most: that of a variable is in the
solution of its model, that of an expression comes from its terms, and anything else may state
one. -/
def valueWithin (workspace : Workspace α) : Nat → Participant → Option α
  | steps, participant =>
    match participant.role, participant.owner, steps with
    | .ofVariable _ _, .model reference, _ => (workspace.model reference).value participant.index
    | .ofExpression number _, _, steps + 1 =>
      (workspace.heap.read? number).bind (Expression.value (valueWithin workspace steps))
    | .stranger statement, _, _ => statement.value.map (Quantity.number workspace.naming)
    | _, _, _ => none

def participantValue (workspace : Workspace α) (participant : Participant) : Option α :=
  workspace.valueWithin workspace.heap.size participant

/-- How an expression is written with all that it holds. -/
def writtenExpression (workspace : Workspace α) (number : Nat) : String :=
  ((workspace.heap.read? number).bind (fun expression =>
    (Value.expression number expression).written?)).getD ""

def presentParticipant (workspace : Workspace α) (participant : Participant) : Participant :=
  match participant.role with
  | .ofExpression number _ =>
    ⟨workspace.ownerWithin workspace.heap.size participant, participant.index,
      .ofExpression number (workspace.writtenExpression number)⟩
  | _ => participant

/-- A participant that is as it is now stays so. -/
theorem presentParticipant_idem (workspace : Workspace α) (participant : Participant) :
    workspace.presentParticipant (workspace.presentParticipant participant) =
      workspace.presentParticipant participant := by
  obtain ⟨owner, index, role⟩ := participant
  cases role with
  | ofExpression number written =>
    simp only [presentParticipant]
    cases workspace.heap.size <;> rfl
  | _ => rfl

def expression (workspace : Workspace α) (number : Nat) : Expression α :=
  ((workspace.heap.read? number).getD { constant := 0 }).map workspace.presentParticipant

mutual

/-- A value as it is now. -/
def present (workspace : Workspace α) : Value α → Value α
  | .expression number _ => .expression number (workspace.expression number)
  | .column tag column => .column tag (column.map workspace.presentParticipant)
  | .list items tag => .list (workspace.presentItems items) tag
  | .record members tag => .record (workspace.presentMembers members) tag
  | other => other

def presentItems (workspace : Workspace α) : List (Value α) → List (Value α)
  | [] => []
  | item :: rest => workspace.present item :: workspace.presentItems rest

def presentMembers (workspace : Workspace α) :
    List (String × Value α) → List (String × Value α)
  | [] => []
  | (name, value) :: rest => (name, workspace.present value) :: workspace.presentMembers rest

end

/-- The object with a name, as it is now. -/
def object? (workspace : Workspace α) (name : String) : Option (Value α) :=
  (workspace.objects.get? name).map (fun named =>
    match named with
    | .expression number => .expression number (workspace.expression number)
    | .value value => workspace.present value)

end LinearProgram.Workspace
