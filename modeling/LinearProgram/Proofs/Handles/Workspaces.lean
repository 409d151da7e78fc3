import LinearProgram.Proofs.Handles.Models
import LinearProgram.Proofs.Handles.Objects
import LinearProgram.Workspace.Change

/-!
# Workspaces with kept handles

A workspace can be looked at with kept handles in the place of all handles that its
expressions and its named objects hold.  It then answers every question as before, up
to the handles in an answer that holds some.
-/

namespace LinearProgram

variable {α : Type} [Scalar α]

/-- What a name stands for, with kept handles. -/
def Named.kept : Named α → Named α
  | expression number => expression number
  | value given => value given.kept

theorem Named.ofValue_kept (value : Value α) : ofValue value.kept = (ofValue value).kept := by
  cases value <;> rfl

section Evaluation

variable {assignment counterpart : Participant → Option α}
  (same : ∀ participant, counterpart participant.kept = assignment participant)

include same

theorem Expression.accumulate_kept (start : α) (terms : List (Term α)) :
    accumulate counterpart start (terms.map Term.kept) = accumulate assignment start terms := by
  unfold accumulate
  rw [List.foldlM_map]
  simp only [Term.kept, same]

theorem Expression.value_kept (expression : Expression α) :
    value counterpart expression.kept = value assignment expression := by
  rw [value, value, termList_kept, accumulate_kept same, constant_kept]

/-- What is found under a number has the same value. -/
theorem Expression.bind_value_kept (found : Option (Expression α)) :
    (found.map kept).bind (value counterpart) = found.bind (value assignment) := by
  cases found with
  | none => rfl
  | some expression => exact value_kept same expression

theorem Expression.violation_kept (expression : Expression α) :
    violation counterpart expression.kept = violation assignment expression := by
  rw [violation, violation, termList_kept, accumulate_kept same, constant_kept, relation_kept]

theorem Workspace.firstObstacle?_kept {obstacle other : Participant → Option (Error α)}
    (alike : ∀ participant, other participant.kept = obstacle participant)
    (terms : List (Term α)) :
    firstObstacle? other counterpart (terms.map Term.kept) =
      firstObstacle? obstacle assignment terms := by
  induction terms with
  | nil => rfl
  | cons term terms induction =>
      simp only [List.map_cons, firstObstacle?, Term.kept, alike, same]
      rw [← induction]

/-- What is found under a number has the same obstacle. -/
theorem Workspace.bind_firstObstacle?_kept {obstacle other : Participant → Option (Error α)}
    (alike : ∀ participant, other participant.kept = obstacle participant)
    (found : Option (Expression α)) :
    (found.map Expression.kept).bind
        (fun expression => firstObstacle? other counterpart expression.termList) =
      found.bind (fun expression => firstObstacle? obstacle assignment expression.termList) := by
  cases found with
  | none => rfl
  | some expression =>
      simp only [Option.map_some, Option.bind_some, Expression.termList_kept]
      exact firstObstacle?_kept same alike _

end Evaluation

namespace Workspace

variable (workspace : Workspace α)

/-- The workspace with the kept handles in what it holds. -/
def kept (workspace : Workspace α) : Workspace α :=
  { workspace with
    heap := workspace.heap.kept
    objects := workspace.objects.map Named.kept }

theorem readHeap_kept (number : Nat) : workspace.kept.heap.read? number =
    (workspace.heap.read? number).map Expression.kept :=
  workspace.heap.read?_kept number

section Texts

theorem expressionText_kept (steps : Nat) :
    workspace.kept.expressionText steps = workspace.expressionText steps := by
  induction steps with
  | zero => rfl
  | succ steps induction =>
      funext number
      have naming : workspace.kept.namingWith (workspace.kept.expressionText steps) =
          workspace.namingWith (workspace.expressionText steps) := by
        rw [induction]
        rfl
      rw [expressionText, expressionText, naming, readHeap_kept]
      cases workspace.heap.read? number with
      | none => rfl
      | some expression => exact Expression.render_kept (Naming.name_kept _) expression

@[simp]
theorem naming_kept : workspace.kept.naming = workspace.naming :=
  congrArg workspace.namingWith (workspace.expressionText_kept (workspace.heap.size + 1))

theorem constraintObstacle?_kept :
    workspace.kept.constraintObstacle? = workspace.constraintObstacle? := rfl

theorem expressionObstacle?_kept (steps : Nat) :
    workspace.kept.expressionObstacle? steps = workspace.expressionObstacle? steps := by
  induction steps with
  | zero => rfl
  | succ steps induction =>
      funext number
      rw [expressionObstacle?, expressionObstacle?, readHeap_kept, induction,
        constraintObstacle?_kept]
      cases workspace.heap.read? number with
      | none => rfl
      | some expression => exact congrArg (List.findSome? _) expression.titles_kept

@[simp]
theorem obstacle?_kept (title : Title) : workspace.kept.obstacle? title =
    workspace.obstacle? title := by
  rw [obstacle?, expressionObstacle?_kept]
  rfl

@[simp]
theorem write_kept (title : Title) : workspace.kept.write title = workspace.write title := by
  rw [write, write, obstacle?_kept, naming_kept]

@[simp]
theorem render_kept (expression : Expression α) :
    workspace.kept.render expression.kept = workspace.render expression := by
  have obstacles : workspace.kept.obstacle? = workspace.obstacle? := funext workspace.obstacle?_kept
  rw [render, render, Expression.titles_kept, obstacles, naming_kept,
    Expression.render_kept (Naming.name_kept _)]

@[simp]
theorem amount_kept (value : Value α) : workspace.kept.amount value.kept =
    workspace.amount value := by
  rw [amount, amount, flat, flat, Value.title_kept, write_kept, naming_kept]
  cases workspace.write value.title with
  | error reason => rfl
  | ok text => exact congrArg Except.ok (Naming.amount_flat_kept workspace.naming value)

theorem kept_reported (error : Error α) :
    (workspace.kept.reported error.kept).kept = (workspace.reported error).kept := by
  have obstacles : workspace.kept.obstacle? = workspace.obstacle? := funext workspace.obstacle?_kept
  rw [reported, reported, obstacles, naming_kept, Error.shownTitles_kept]
  cases (error.shownTitles workspace.naming).findSome? workspace.obstacle? with
  | none => exact error.kept_kept
  | some reason => rfl

end Texts

section Participants

theorem ownerWithin_kept (steps : Nat) (participant : Participant) :
    workspace.kept.ownerWithin steps participant.kept =
      workspace.ownerWithin steps participant := by
  induction steps generalizing participant with
  | zero => rfl
  | succ steps induction =>
      obtain ⟨owner, index, role⟩ := participant
      cases role with
      | ofExpression number written =>
          simp only [Participant.kept, Role.kept, ownerWithin, readHeap_kept]
          cases workspace.heap.read? number with
          | none => rfl
          | some expression =>
              simp only [Option.map_some, Option.bind_some, Expression.terms_kept,
                Terms.first?_kept]
              cases expression.terms.first? with
              | none => rfl
              | some term => exact induction term.participant
      | _ => rfl

theorem writtenExpression_kept (number : Nat) :
    workspace.kept.writtenExpression number = workspace.writtenExpression number := by
  rw [writtenExpression, writtenExpression, readHeap_kept]
  cases workspace.heap.read? number with
  | none => rfl
  | some expression =>
      exact congrArg (Option.getD · "") (Value.expression number expression).written?_kept

theorem presentParticipant_kept (participant : Participant) :
    workspace.kept.presentParticipant participant.kept =
      (workspace.presentParticipant participant).kept := by
  obtain ⟨owner, index, role⟩ := participant
  cases role with
  | ofExpression number written =>
      have owners := workspace.ownerWithin_kept workspace.heap.size
        ⟨owner, index, .ofExpression number written⟩
      have texts := workspace.writtenExpression_kept number
      simp only [presentParticipant, Participant.kept, Role.kept] at owners ⊢
      rw [texts]
      exact congrArg (fun owner => (⟨owner, index, _⟩ : Participant)) owners
  | _ => rfl

theorem expression_kept (number : Nat) :
    workspace.kept.expression number = (workspace.expression number).kept := by
  rw [expression, expression, readHeap_kept,
    Expression.kept_map _ (fun participant => (workspace.presentParticipant_kept participant).symm)]
  cases workspace.heap.read? number <;> rfl

/-- What an expression has as its value has one step less. -/
private theorem valueWithin_object (steps number : Nat) (owner : Owner) (index : Index)
    (written : String) :
    workspace.valueWithin (steps + 1) ⟨owner, index, .ofExpression number written⟩ =
      (workspace.heap.read? number).bind (Expression.value (workspace.valueWithin steps)) := by
  rw [valueWithin.eq_def]

private theorem valueWithin_stranger (steps : Nat) (owner : Owner) (index : Index)
    (statement : Statement) :
    workspace.valueWithin steps ⟨owner, index, .stranger statement⟩ =
      statement.value.map (Quantity.number workspace.naming) := by
  rw [valueWithin.eq_def]

theorem valueWithin_kept (steps : Nat) (participant : Participant) :
    workspace.kept.valueWithin steps participant.kept =
      workspace.valueWithin steps participant := by
  induction steps generalizing participant with
  | zero =>
      obtain ⟨owner, index, role⟩ := participant
      cases role with
      | stranger statement =>
          simp only [Participant.kept, Role.kept, valueWithin_stranger, naming_kept]
      | _ =>
          rw [valueWithin.eq_def, valueWithin.eq_def]
          cases owner <;> rfl
  | succ steps induction =>
      obtain ⟨owner, index, role⟩ := participant
      cases role with
      | stranger statement =>
          simp only [Participant.kept, Role.kept, valueWithin_stranger, naming_kept]
      | ofExpression number written =>
          simp only [Participant.kept, Role.kept, valueWithin_object, readHeap_kept]
          exact Expression.bind_value_kept induction _
      | _ =>
          rw [valueWithin.eq_def, valueWithin.eq_def]
          cases owner <;> rfl

theorem participantValue_kept (participant : Participant) :
    workspace.kept.participantValue participant.kept =
      workspace.participantValue participant :=
  workspace.valueWithin_kept _ participant

private theorem valueObstacle?_object (steps number : Nat) (owner : Owner) (index : Index)
    (written : String) :
    workspace.valueObstacle? (steps + 1) ⟨owner, index, .ofExpression number written⟩ =
      (workspace.heap.read? number).bind (fun expression =>
        firstObstacle? (workspace.valueObstacle? steps) (workspace.valueWithin steps)
          expression.termList) := by
  rw [valueObstacle?.eq_def]

private theorem valueObstacle?_stranger (steps : Nat) (owner : Owner) (index : Index)
    (statement : Statement) :
    workspace.valueObstacle? steps ⟨owner, index, .stranger statement⟩ =
      statement.value.bind (fun value => workspace.obstacle? value.title) := by
  rw [valueObstacle?.eq_def]

theorem valueObstacle?_kept (steps : Nat) (participant : Participant) :
    workspace.kept.valueObstacle? steps participant.kept =
      workspace.valueObstacle? steps participant := by
  induction steps generalizing participant with
  | zero =>
      obtain ⟨owner, index, role⟩ := participant
      cases role with
      | stranger statement =>
          simp only [Participant.kept, Role.kept, valueObstacle?_stranger, obstacle?_kept]
      | _ => rw [valueObstacle?.eq_def, valueObstacle?.eq_def]; rfl
  | succ steps induction =>
      obtain ⟨owner, index, role⟩ := participant
      cases role with
      | stranger statement =>
          simp only [Participant.kept, Role.kept, valueObstacle?_stranger, obstacle?_kept]
      | ofExpression number written =>
          simp only [Participant.kept, Role.kept, valueObstacle?_object, readHeap_kept]
          exact bind_firstObstacle?_kept (workspace.valueWithin_kept steps) induction _
      | _ => rw [valueObstacle?.eq_def, valueObstacle?.eq_def]; rfl

@[simp]
theorem value_kept (expression : Expression α) :
    workspace.kept.value expression.kept = workspace.value expression := by
  have values : (Expression.value workspace.kept.participantValue expression.kept) =
      Expression.value workspace.participantValue expression :=
    Expression.value_kept workspace.participantValue_kept expression
  have obstacles := firstObstacle?_kept workspace.participantValue_kept
    (workspace.valueObstacle?_kept workspace.heap.size) expression.termList
  rw [value, evaluate, Expression.termList_kept, values]
  simp only [show workspace.kept.heap.size = workspace.heap.size from rfl, obstacles]
  rfl

@[simp]
theorem violation_kept (expression : Expression α) :
    workspace.kept.violation expression.kept = workspace.violation expression := by
  have values : (Expression.violation workspace.kept.participantValue expression.kept) =
      Expression.violation workspace.participantValue expression :=
    Expression.violation_kept workspace.participantValue_kept expression
  have obstacles := firstObstacle?_kept workspace.participantValue_kept
    (workspace.valueObstacle?_kept workspace.heap.size) expression.termList
  rw [violation, evaluate, Expression.termList_kept, values]
  simp only [show workspace.kept.heap.size = workspace.heap.size from rfl, obstacles]
  rfl

end Participants

section Objects

@[simp]
theorem isHandle_present (value : Value α) :
    (workspace.present value).isHandle = value.isHandle := by
  cases value <;> rfl

mutual

theorem present_kept : (value : Value α) →
    workspace.kept.present value.kept = (workspace.present value).kept
  | .missing | .null | .truth _ | .number _ | .text _ | .model _ | .row _ _ => rfl
  | .handle _ | .constraint _ => rfl
  | .expression number contents => by
    simp only [Value.kept, present, expression_kept]
  | .column tag column => by
    simp [Value.kept, present, Column.kept, Column.map, presentParticipant_kept]
  | .list items tag => by
    rw [Value.kept, present, present, Value.kept, presentItems_kept items]
  | .record members tag => by
    rw [Value.kept, present, present, Value.kept, presentMembers_kept members]

theorem presentItems_kept : (items : List (Value α)) →
    workspace.kept.presentItems (Value.keptItems items) =
      Value.keptItems (workspace.presentItems items)
  | [] => rfl
  | item :: rest => by
    rw [Value.keptItems, presentItems, presentItems, Value.keptItems, present_kept item,
      presentItems_kept rest]

theorem presentMembers_kept : (members : List (String × Value α)) →
    workspace.kept.presentMembers (Value.keptMembers members) =
      Value.keptMembers (workspace.presentMembers members)
  | [] => rfl
  | (name, value) :: rest => by
    rw [Value.keptMembers, presentMembers, presentMembers, Value.keptMembers,
      presentMembers_kept rest, isHandle_present]
    cases held : value.isHandle with
    | true => cases value <;> first | rfl | cases held
    | false => simp [present_kept value]

end

theorem object?_kept (name : String) :
    workspace.kept.object? name = (workspace.object? name).map Value.kept := by
  have found : workspace.kept.objects.get? name =
      (workspace.objects.get? name).map Named.kept :=
    OrderedMap.get?_map Named.kept workspace.objects name
  rw [object?, found, object?]
  cases workspace.objects.get? name with
  | none => rfl
  | some named =>
      cases named with
      | expression number =>
          simp [Named.kept, Value.kept, expression_kept]
      | value given => simp [Named.kept, present_kept]

end Objects

section Records

theorem attributeOf_kept {value : Value α} (object : value.isObject = true) (name : String) :
    workspace.kept.attributeOf value.kept name = workspace.attributeOf value name := by
  cases value with
  | expression number expression =>
      simp only [Value.kept, attributeOf, expressionAttribute, value_kept, Expression.relation_kept]
  | missing | null | truth _ | number _ | text _ | list _ _ | record _ _ => cases object
  | _ => rfl

/-- Options are read off an object, or taken as they are given. -/
theorem asRecord_alike (names : List String) (value : Value α) :
    Check.Alike Value.kept (workspace.asRecord names value)
      (workspace.kept.asRecord names value.kept) := by
  unfold asRecord
  rw [Value.isObject_kept]
  split
  · rename_i object
    simp only [attributeOf_kept workspace object]
    exact .refl _
  · exact .ok value.kept_kept.symm

/-- Whether something states that it is not related to anything. -/
private def affine (stated : Except (Error α) (Value α)) : Bool :=
  match stated with
  | .ok (.text "") => true
  | _ => false

private theorem affine_kept {value : Value α} (name : String) :
    affine (workspace.kept.attributeOf value.kept name) =
      affine (workspace.attributeOf value name) := by
  by_cases object : value.isObject = true
  · rw [attributeOf_kept workspace object]
  · have stated : ∀ given : Value α, affine (.ok given.keptMember) = affine (.ok given) := by
      intro given
      cases given <;> rfl
    have read := value.member_kept name
    cases value with
    | model _ | handle _ | expression _ _ | constraint _ | column _ _ | row _ _ =>
        exact absurd rfl object
    | record members tag =>
        simp only [Value.kept] at read ⊢
        simp only [attributeOf, read, stated]
    | _ => rfl

/-- What is no expression is refused, for one of three reasons. -/
private theorem constraintBody_of_other {value : Value α} (reference : ModelRef)
    (foreign : Error α) (other : ∀ number contents, value ≠ .expression number contents) :
    workspace.constraintBody reference value foreign =
      .error (if affine (workspace.attributeOf value "sense") then .noRelation
        else if value.owner = .nobody || value.owner = .model reference then .unsupported value
        else foreign) := by
  unfold constraintBody
  split
  · exact absurd rfl (other _ _)
  · split
    · rename_i stated
      rw [stated]
      rfl
    · rename_i unstated
      have related : affine (workspace.attributeOf value "sense") = false := by
        unfold affine
        split
        · rename_i stated
          exact absurd stated unstated
        · rfl
      rw [related]
      split <;> simp_all

theorem constraintBody_alike (reference : ModelRef) (value : Value α) (foreign : Error α) :
    Check.Alike Expression.kept (workspace.constraintBody reference value foreign)
      (workspace.kept.constraintBody reference value.kept foreign) := by
  by_cases expression : ∃ number contents, value = .expression number contents
  · obtain ⟨number, contents, rfl⟩ := expression
    exact .ok contents.kept_kept.symm
  · have other : ∀ number contents, value ≠ .expression number contents :=
      fun number contents same => expression ⟨number, contents, same⟩
    have counterpart : ∀ number contents, value.kept ≠ .expression number contents := by
      intro number contents same
      cases value <;> first | exact other _ _ rfl | cases same
    rw [constraintBody_of_other workspace reference foreign other,
      constraintBody_of_other workspace.kept reference foreign counterpart, affine_kept,
      Value.owner_kept]
    refine .error ?_
    split
    · rfl
    · split
      · simp [Error.kept]
      · rfl

end Records

section Conflicts

theorem isBinary_kept (model : Model α) (participant : Participant) :
    model.isBinary participant.kept = model.isBinary participant := by
  obtain ⟨owner, index, role⟩ := participant
  cases role <;> rfl

theorem requireBinary_alike (model : Model α) {first second : Literal}
    (same : first.kept = second.kept) :
    Check.Alike id (model.requireBinary first) (model.requireBinary second) := by
  have participants : first.participant.kept = second.participant.kept :=
    (congrArg Literal.participant same :)
  have owner : first.participant.owner = second.participant.owner := by
    rw [← Participant.owner_kept, participants, Participant.owner_kept]
  have index : first.participant.index = second.participant.index := by
    rw [← Participant.index_kept, participants, Participant.index_kept]
  have binary : model.isBinary first.participant = model.isBinary second.participant := by
    rw [← isBinary_kept, participants, isBinary_kept]
  unfold Model.requireBinary
  rw [owner, index, binary]
  split
  · exact .refl _
  · cases model.isBinary second.participant with
    | error reason => exact .refl (.error reason)
    | ok answer =>
        cases answer with
        | true => exact .refl (.ok ())
        | false => exact .error (congrArg Error.notBinary participants)

theorem assignment_of_kept {first second : Literal} (same : first.kept = second.kept) :
    first.assignment = second.assignment := by
  rw [← Literal.assignment_kept, same, Literal.assignment_kept]

theorem conflicting_alike (reference : ModelRef) (first second : Value α) :
    Check.Alike id (workspace.conflicting reference first second)
      (workspace.kept.conflicting reference first.kept second.kept) := by
  refine (Literal.ofValue_alike first).bind (fun one other same => ?_)
  refine (Literal.ofValue_alike second).bind (fun next further alike => ?_)
  refine (requireBinary_alike _ same).bind (fun _ _ _ => ?_)
  refine (requireBinary_alike _ alike).bind (fun _ _ _ => ?_)
  rw [assignment_of_kept same, assignment_of_kept alike]
  exact .refl _

theorem conflicts_alike (reference : ModelRef) (value : Value α) :
    Check.Alike id (workspace.conflicts reference value)
      (workspace.kept.conflicts reference value.kept) := by
  refine (Literal.ofValue_alike value).bind (fun one other same => ?_)
  refine (requireBinary_alike _ same).bind (fun _ _ _ => ?_)
  rw [assignment_of_kept same]
  exact .refl _

end Conflicts

end Workspace

end LinearProgram
