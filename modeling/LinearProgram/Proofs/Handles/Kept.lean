import LinearProgram.Expression.Rendering
import LinearProgram.Naming
import LinearProgram.Proofs.OrderedMap
import LinearProgram.Value.Accepted

/-!
# Kept handles

A handle states a model and an index, and besides it is an object of its own.  Of all
handles of one variable, or of one constraint, the model itself keeps one.  Two
arguments differ in nothing but their handles if they become the same once each handle
is replaced by the kept one of its variable or constraint.

What values say of themselves shows no such difference: their texts, their lengths,
what they state as index, owner or name, and what takes part where they are given.

A member of a record is no argument by itself.  A handle in the place of an index or
of a model counts there as the object that it is, so a handle that is a member stays.
-/

namespace LinearProgram

/-- The handle that the model itself keeps of the same variable. -/
def Variable.kept (handle : Variable) : Variable := handle.model.variable handle.index

/-- The handle that the model itself keeps of the same constraint. -/
def Constraint.kept (handle : Constraint) : Constraint :=
  { model := handle.model, index := handle.index }

def Role.kept : Role → Role
  | .ofVariable _ _ => .ofVariable 0 false
  | .ofConstraint _ _ => .ofConstraint 0 false
  | other => other

namespace Participant

def kept (participant : Participant) : Participant :=
  { participant with role := participant.role.kept }

variable (participant : Participant)

@[simp]
theorem owner_kept : participant.kept.owner = participant.owner := rfl

@[simp]
theorem index_kept : participant.kept.index = participant.index := rfl

@[simp]
theorem title_kept : participant.kept.title = participant.title := by
  obtain ⟨owner, index, role⟩ := participant
  cases role <;> cases owner <;> rfl

@[simp]
theorem written_kept : participant.kept.written = participant.written := by
  obtain ⟨owner, index, role⟩ := participant
  cases role <;> rfl

@[simp]
theorem kept_kept : participant.kept.kept = participant.kept := by
  obtain ⟨owner, index, role⟩ := participant
  cases role <;> rfl

end Participant

section Collections

variable {α : Type}

def Term.kept (term : Term α) : Term α := { term with participant := term.participant.kept }

def Terms.kept (terms : Terms α) : Terms α := terms.map Term.kept

namespace Terms

variable (terms : Terms α)

@[simp]
theorem get?_kept (index : Index) :
    terms.kept.get? index = (terms.get? index).map Term.kept :=
  OrderedMap.get?_map Term.kept terms index

@[simp]
theorem values_kept : terms.kept.values = terms.values.map Term.kept := by
  simp [Terms.kept, OrderedMap.map, OrderedMap.values]

@[simp]
theorem first?_kept : terms.kept.first? = terms.first?.map Term.kept := by
  simp [OrderedMap.first?]

@[simp]
theorem owner?_kept : terms.kept.owner? = terms.owner? := by
  rw [owner?, first?_kept, Option.map_map]
  rfl

@[simp]
theorem size_kept : terms.kept.size = terms.size := List.length_map _

end Terms

namespace Expression

def kept (expression : Expression α) : Expression α := expression.map Participant.kept

variable (expression : Expression α)

@[simp]
theorem terms_kept : expression.kept.terms = expression.terms.kept := rfl

@[simp]
theorem constant_kept : expression.kept.constant = expression.constant := rfl

@[simp]
theorem relation_kept : expression.kept.relation = expression.relation := rfl

@[simp]
theorem size_kept : expression.kept.size = expression.size := expression.terms.size_kept

@[simp]
theorem isConstant_kept : expression.kept.isConstant = expression.isConstant := by
  rw [isConstant, terms_kept, Terms.size_kept, isConstant]

@[simp]
theorem termList_kept : expression.kept.termList = expression.termList.map Term.kept :=
  expression.terms.values_kept

@[simp]
theorem owner?_kept : expression.kept.owner? = expression.owner? := by
  simp [owner?]

@[simp]
theorem titles_kept : expression.kept.titles = expression.titles := by
  simp [titles, Term.kept]

section Equal

variable {first second : Expression α} (same : first.kept = second.kept)

include same

theorem constant_of_kept : first.constant = second.constant := by
  rw [← first.constant_kept, same, constant_kept]

theorem relation_of_kept : first.relation = second.relation := by
  rw [← first.relation_kept, same, relation_kept]

theorem terms_of_kept : first.terms.kept = second.terms.kept := by
  rw [← first.terms_kept, same, terms_kept]

theorem termList_of_kept : first.termList.map Term.kept = second.termList.map Term.kept := by
  rw [← first.termList_kept, same, termList_kept]

end Equal

/-- Expressions with the same numbers are alike if their terms are. -/
theorem kept_congr {first second : Expression α} (terms : first.terms.kept = second.terms.kept)
    (constant : first.constant = second.constant)
    (relation : first.relation = second.relation) : first.kept = second.kept := by
  obtain ⟨firstTerms, firstConstant, firstRelation⟩ := first
  obtain ⟨secondTerms, secondConstant, secondRelation⟩ := second
  cases constant
  cases relation
  exact congrArg (fun terms => Expression.mk terms _ _) terms

/-- Participants are replaced before or after handles are. -/
theorem kept_map {replace counterpart : Participant → Participant}
    (same : ∀ participant, (replace participant).kept = counterpart participant.kept) :
    (expression.map replace).kept = expression.kept.map counterpart := by
  obtain ⟨terms, constant, relation⟩ := expression
  simp only [kept, map, Expression.mk.injEq, and_true]
  apply OrderedMap.ext
  simp [OrderedMap.map, same]

@[simp]
theorem kept_kept : expression.kept.kept = expression.kept :=
  kept_map expression (fun _ => rfl) |>.trans (by
    obtain ⟨terms, constant, relation⟩ := expression
    simp only [kept, map, Expression.mk.injEq, and_true]
    apply OrderedMap.ext
    simp [OrderedMap.map])

end Expression

variable [Scalar α]

theorem Expression.render_kept {name : Participant → String}
    (blind : ∀ participant, name participant.kept = name participant)
    (expression : Expression α) : expression.kept.render name = expression.render name := by
  have same : ∀ term : Term α, renderTerm name term.kept = renderTerm name term := by
    intro term
    rw [renderTerm, renderTerm, ← blind term.participant]
    rfl
  have listed : (expression.termList.map Term.kept).map (renderTerm name) =
      expression.termList.map (renderTerm name) := by
    rw [List.map_map]
    exact List.map_congr_left (fun term _ => same term)
  rw [render, render, termList_kept, listed]
  rfl

namespace Column

def kept (column : Column α) : Column α := column.map Participant.kept

variable (column : Column α)

@[simp]
theorem entries_kept : column.kept.entries =
    column.entries.map (fun entry => (entry.1.kept, entry.2)) := rfl

@[simp]
theorem size_kept : column.kept.size = column.size := List.length_map _

@[simp]
theorem title_kept : column.kept.title = column.title := by
  simp [title, Function.comp_def]

@[simp]
theorem kept_kept : column.kept.kept = column.kept := by
  simp [kept, map]

end Column

end Collections

namespace Value

variable {α : Type} [Scalar α]

/-- Whether a value is a handle itself. -/
def isHandle : Value α → Bool
  | handle _ | constraint _ => true
  | _ => false

mutual

/-- The value with the kept handles in the place of its handles. -/
def kept : Value α → Value α
  | handle value => handle value.kept
  | constraint value => constraint value.kept
  | expression place value => expression place value.kept
  | column tag value => column tag value.kept
  | list items tag => list (keptItems items) tag
  | record members tag => record (keptMembers members) tag
  | other => other

def keptItems : List (Value α) → List (Value α)
  | [] => []
  | item :: rest => item.kept :: keptItems rest

def keptMembers : List (String × Value α) → List (String × Value α)
  | [] => []
  | (name, value) :: rest =>
    (name, if value.isHandle then value else value.kept) :: keptMembers rest

end

/-- A member of a record with the kept handles in the place of the handles that it holds. -/
def keptMember (value : Value α) : Value α := if value.isHandle then value else value.kept

theorem keptItems_eq_map (items : List (Value α)) : keptItems items = items.map kept := by
  induction items with
  | nil => rfl
  | cons item rest induction => rw [keptItems, induction, List.map_cons]

theorem keptMembers_eq_map (members : List (String × Value α)) :
    keptMembers members = members.map (fun entry => (entry.1, entry.2.keptMember)) := by
  induction members with
  | nil => rfl
  | cons entry rest induction => rw [keptMembers, induction, List.map_cons, keptMember]

section Forms

variable (value : Value α)

@[simp]
theorem isHandle_kept : value.kept.isHandle = value.isHandle := by
  cases value <;> rfl

@[simp]
theorem isObject_kept : value.kept.isObject = value.isObject := by
  cases value <;> rfl

@[simp]
theorem optionType_kept : value.kept.optionType = value.optionType := by
  cases value <;> rfl

@[simp]
theorem isVoid_kept : value.kept.isVoid = value.isVoid := by
  cases value <;> rfl

/-- What does not distinguish values from those with kept handles does not distinguish
members either. -/
theorem keptMember_congr {β : Sort _} {read : Value α → β}
    (blind : ∀ given, read given.kept = read given) :
    read value.keptMember = read value := by
  unfold keptMember
  split
  · rfl
  · exact blind value

end Forms

section Idempotence

mutual

@[simp]
theorem kept_kept : (value : Value α) → value.kept.kept = value.kept
  | missing | null | truth _ | number _ | text _ | model _ | row _ _ => rfl
  | handle _ | constraint _ => rfl
  | expression place value => by simp [kept]
  | column tag value => by simp [kept]
  | list items tag => by rw [kept, kept, keptItems_keptItems items]
  | record members tag => by rw [kept, kept, keptMembers_keptMembers members]

theorem keptItems_keptItems : (items : List (Value α)) →
    keptItems (keptItems items) = keptItems items
  | [] => rfl
  | item :: rest => by
    rw [keptItems, keptItems, kept_kept item, keptItems_keptItems rest]

theorem keptMembers_keptMembers : (members : List (String × Value α)) →
    keptMembers (keptMembers members) = keptMembers members
  | [] => rfl
  | (name, value) :: rest => by
    rw [keptMembers, keptMembers, keptMembers_keptMembers rest]
    cases held : value.isHandle <;> simp [held, kept_kept value]

end

@[simp]
theorem kept_keptMember (value : Value α) : value.keptMember.kept = value.kept :=
  keptMember_congr value kept_kept

end Idempotence

section Texts

mutual

@[simp]
theorem title_kept : (value : Value α) → value.kept.title = value.title
  | missing | null | truth _ | number _ | text _ | model _ | row _ _ => rfl
  | handle _ | constraint _ | expression _ _ | record _ _ => rfl
  | column tag value => by simp [kept, title]
  | list items tag => by rw [kept, title, title, itemTitles_keptItems items]

theorem itemTitles_keptItems : (items : List (Value α)) →
    itemTitles (keptItems items) = itemTitles items
  | [] => rfl
  | item :: rest => by
    have later := itemTitles_keptItems rest
    have same := title_kept item
    cases item <;> simp only [keptItems, kept, itemTitles] at * <;> simp [later, same]

end

mutual

theorem written?_kept : (value : Value α) → value.kept.written? = value.written?
  | missing | null | truth _ | number _ | text _ | model _ | row _ _ => rfl
  | handle _ | constraint _ | expression _ _ => rfl
  | column tag value => by
    simp [kept, written?, Function.comp_def]
  | list items tag => by rw [kept, written?, written?, writtenItems_keptItems items]
  | record members tag => by
    rw [kept, written?, written?, writtenMembers_keptMembers members]

theorem writtenItems_keptItems : (items : List (Value α)) →
    writtenItems (keptItems items) = writtenItems items
  | [] => rfl
  | item :: rest => by
    rw [keptItems, writtenItems, writtenItems, written?_kept item,
      writtenItems_keptItems rest]

theorem writtenMembers_keptMembers : (members : List (String × Value α)) →
    writtenMembers (keptMembers members) = writtenMembers members
  | [] => rfl
  | (name, value) :: rest => by
    have same : (if value.isHandle then value else value.kept).written? = value.written? := by
      split
      · rfl
      · exact written?_kept value
    rw [keptMembers, writtenMembers, writtenMembers, same,
      writtenMembers_keptMembers rest]

end

variable (value : Value α)

@[simp]
theorem ownText_kept : value.kept.ownText = value.ownText := by
  rw [ownText, title_kept, ownText]

@[simp]
theorem shown_kept : value.kept.shown = value.shown := by
  rw [shown, written?_kept, shown]

@[simp]
theorem amount_kept : value.kept.amount = value.amount := by
  cases value with
  | list items tag =>
      have same := ownText_kept (list items tag)
      rw [kept] at same ⊢
      rw [amount, amount, same]
  | _ => rfl

end Texts

section Members

variable (value : Value α) (name : String)

theorem find_keptMembers (members : List (String × Value α)) :
    (keptMembers members).find? (fun entry => entry.1 == name) =
      (members.find? (fun entry => entry.1 == name)).map
        (fun entry => (entry.1, entry.2.keptMember)) := by
  rw [keptMembers_eq_map, List.find?_map]
  rfl

theorem member?_kept :
    value.kept.member? name = (value.member? name).map keptMember := by
  cases value with
  | record members tag =>
      simp [kept, member?, find_keptMembers, Function.comp_def]
  | _ => rfl

theorem member_kept : value.kept.member name = (value.member name).keptMember := by
  rw [member, member?_kept, member]
  cases value.member? name <;> rfl

theorem length_kept : value.kept.length = value.length.keptMember := by
  cases value with
  | list items tag =>
      simp [kept, length, keptItems_eq_map, count, keptMember, isHandle]
  | record members tag => exact member_kept (record members tag) "length"
  | _ => rfl

theorem size_kept : value.kept.size = value.size.keptMember := by
  cases value with
  | record members tag => exact member_kept (record members tag) "size"
  | expression place value => simp [kept, size, count, keptMember, isHandle]
  | column tag value => simp [kept, size, count, keptMember, isHandle]
  | _ => rfl

theorem constant_kept : value.kept.constant = value.constant.keptMember := by
  cases value with
  | record members tag => exact member_kept (record members tag) "constant"
  | _ => rfl

theorem item_kept (position : Nat) :
    (value.kept.item position).kept = (value.item position).kept := by
  cases value with
  | list items tag =>
      simp only [kept, item, keptItems_eq_map, List.getElem?_map]
      cases items[position]? with
      | none => rfl
      | some item => exact kept_kept item
  | record members tag =>
      change ((record members tag).kept.member _).kept = ((record members tag).member _).kept
      rw [member_kept, kept_keptMember]
  | _ => rfl

theorem items_kept : value.kept.items = value.items.map kept := by
  cases value with
  | list items tag => exact keptItems_eq_map items
  | text value =>
      simp only [kept, items, List.map_map]
      rfl
  | _ => rfl

end Members

section Participants

variable (value : Value α)

/-- A value that is no handle stands for the same index. -/
theorem asIndex_kept (other : value.isHandle = false) :
    value.kept.asIndex = value.asIndex := by
  cases value with
  | handle _ | constraint _ => cases other
  | list items tag =>
      have same := ownText_kept (list items tag)
      rw [kept] at same ⊢
      rw [asIndex, asIndex, same]
  | _ => rfl

@[simp]
theorem asIndex_keptMember : value.keptMember.asIndex = value.asIndex := by
  unfold keptMember
  split
  · rfl
  · rename_i other
    exact asIndex_kept value (Bool.eq_false_iff.mpr other)

@[simp]
theorem title_keptMember : value.keptMember.title = value.title :=
  keptMember_congr value title_kept

@[simp]
theorem index_kept : value.kept.index = value.index := by
  cases value with
  | record members tag =>
      change ((record members tag).kept.member "idx").asIndex =
        ((record members tag).member "idx").asIndex
      rw [member_kept, asIndex_keptMember]
  | _ => rfl

@[simp]
theorem ownTitle_kept : value.kept.ownTitle = value.ownTitle := by
  cases value with
  | record members tag =>
      change ((record members tag).kept.member "name").title =
        ((record members tag).member "name").title
      rw [member_kept, title_keptMember]
  | _ => rfl

theorem asOwner_kept (other : value.isHandle = false) :
    value.kept.asOwner = value.asOwner := by
  have index := asIndex_kept value other
  have name := ownTitle_kept value
  cases value <;> simp only [kept, asOwner, Owner.other.injEq] at * <;>
    exact ⟨index, name⟩

@[simp]
theorem asOwner_keptMember : value.keptMember.asOwner = value.asOwner := by
  unfold keptMember
  split
  · rfl
  · rename_i other
    exact asOwner_kept value (Bool.eq_false_iff.mpr other)

@[simp]
theorem owner_kept : value.kept.owner = value.owner := by
  cases value with
  | expression place value => simp [kept, owner]
  | record members tag =>
      change ((record members tag).kept.member "model").asOwner =
        ((record members tag).member "model").asOwner
      rw [member_kept, asOwner_keptMember]
  | _ => rfl

@[simp]
theorem quantity?_kept : value.kept.quantity? = value.quantity? := by
  have same := title_kept value
  cases value with
  | missing | null | truth _ | number _ => rfl
  | _ => exact congrArg (fun title => some (Quantity.written title)) same

/-- Comparing with a text or with a number takes no notice of handles. -/
theorem identical_keptMember_text (given : String) :
    value.keptMember.identical (text given) = value.identical (text given) := by
  cases value <;> rfl

theorem identical_keptMember_count (given : Nat) :
    value.keptMember.identical (count given) = value.identical (count given) := by
  cases value <;> rfl

/-- Members are compared by what tells objects apart. -/
theorem identical_keptMember (other : Value α) :
    value.keptMember.identical other.keptMember = value.identical other := by
  cases value <;> cases other <;> rfl

theorem statement_kept (other : value.isHandle = false) :
    value.kept.statement = value.statement := by
  simp only [statement, asIndex_kept value other, ownTitle_kept, member_kept,
    identical_keptMember_text, written?_kept, keptMember_congr _ quantity?_kept]

@[simp]
theorem role_kept : value.kept.role = value.role.kept := by
  have stated := statement_kept value
  cases value with
  | handle value => rfl
  | constraint value => rfl
  | expression place value => rfl
  | _ => exact congrArg Role.stranger (stated rfl)

theorem participant?_kept : value.kept.participant? = value.participant?.map Participant.kept := by
  have same : (⟨value.kept.owner, value.kept.index, value.kept.role⟩ : Participant) =
      Participant.kept ⟨value.owner, value.index, value.role⟩ := by
    rw [owner_kept, index_kept, role_kept]
    rfl
  cases value with
  | missing | null => rfl
  | _ => exact congrArg some same

end Participants

end Value

namespace Naming

variable {α : Type} [Scalar α] (naming : Naming) (value : Value α)

@[simp]
theorem name_kept (participant : Participant) :
    naming.name participant.kept = naming.name participant := by
  rw [name, Participant.title_kept, name]

@[simp]
theorem plain_kept : naming.plain value.kept = naming.plain value := by
  rw [plain, Value.title_kept, plain]

theorem amount_flat_kept : (naming.flat value.kept).amount = (naming.flat value).amount := by
  have same := plain_kept naming value
  cases value with
  | missing | null | truth _ | number _ | text _ => rfl
  | _ => exact congrArg Text.number same

theorem ownName_keptMember :
    (naming.ownName value.keptMember).title = (naming.ownName value).title := by
  unfold Value.keptMember
  split
  · rfl
  · cases value with
    | record members tag =>
        change ((Value.record members tag).kept.member "name").title =
          ((Value.record members tag).member "name").title
        rw [Value.member_kept, Value.title_keptMember]
    | _ => rfl

@[simp]
theorem title_typeOf_kept : (naming.typeOf value.kept).title = (naming.typeOf value).title := by
  cases value with
  | record members tag =>
      change (naming.constructedType ((Value.record members tag).kept.member? _)).title =
        (naming.constructedType ((Value.record members tag).member? _)).title
      rw [Value.member?_kept]
      cases (Value.record members tag).member? "constructor" with
      | none => rfl
      | some given =>
          simp only [Option.map_some, constructedType,
            Value.keptMember_congr given Value.isVoid_kept]
          split
          · rfl
          · exact ownName_keptMember naming given
  | _ => rfl

@[simp]
theorem plain_typeOf_kept :
    naming.plain (naming.typeOf value.kept) = naming.plain (naming.typeOf value) := by
  rw [plain, title_typeOf_kept, plain]

end Naming

end LinearProgram
