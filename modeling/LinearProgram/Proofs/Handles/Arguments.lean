import LinearProgram.Column.Pairing
import LinearProgram.Literal
import LinearProgram.Options
import LinearProgram.Proofs.Handles.Alike

/-!
# Arguments with kept handles

What an operation takes out of an argument is the same for all arguments that are the
same with kept handles: numbers, relations, kinds and options exactly, and
participants, columns and literals up to their handles.
-/

namespace LinearProgram

variable {α : Type} [Scalar α] {β γ : Type}

open Check (Alike)

namespace Value

variable {view : β → γ}

/-- What takes no notice of kept handles takes no notice of any handles. -/
theorem alike_of_kept {read : Value α → Except (Error α) β}
    (blind : ∀ value, Alike view (read value) (read value.kept)) {first second : Value α}
    (same : first.kept = second.kept) : Alike view (read first) (read second) :=
  .of_blind blind same

variable (value : Value α)

theorem scalar_alike (operation : String) :
    Alike id (value.scalar operation) (value.kept.scalar operation) := by
  have reason : (Error.notScalar (.text operation) value).kept =
      (Error.notScalar (.text operation) value.kept).kept := by
    simp [Error.kept]
  cases value with
  | number given => exact .refl _
  | _ => exact .error reason

theorem finite_alike : Alike id value.finite value.kept.finite := by
  have reason : (Error.notFinite value).kept = (Error.notFinite value.kept).kept := by
    simp [Error.kept]
  cases value with
  | number given => exact .refl _
  | _ => exact .error reason

theorem relation_alike : Alike id value.relation value.kept.relation := by
  have reason : (Error.invalidRelation value).kept = (Error.invalidRelation value.kept).kept := by
    simp [Error.kept]
  cases value with
  | text mark => exact .refl _
  | _ => exact .error reason

theorem variableKind_alike : Alike id value.variableKind value.kept.variableKind := by
  have reason : (Error.invalidKind value).kept = (Error.invalidKind value.kept).kept := by
    simp [Error.kept]
  cases value with
  | text code => exact .refl _
  | _ => exact .error reason

theorem participant_alike :
    Alike Participant.kept value.participant value.kept.participant := by
  rw [participant, participant, participant?_kept]
  cases value.participant? with
  | none => exact .error (by simp [Error.kept])
  | some participant => exact .ok participant.kept_kept.symm

theorem orElse_kept (fallback : Value α) :
    value.kept.orElse fallback.kept = (value.orElse fallback).kept := by
  cases value <;> rfl

theorem item_keptMember (position : Nat) :
    (value.keptMember.item position).kept = (value.item position).kept :=
  @keptMember_congr _ _ value _ (fun given => (given.item position).kept)
    (fun given => given.item_kept position)

end Value

theorem Literal.zeroed?_kept (expression : Expression α) :
    zeroed? expression.kept = (zeroed? expression).map Participant.kept := by
  obtain ⟨terms, constant, relation⟩ := expression
  simp only [zeroed?, Expression.termList_kept, Expression.relation_kept,
    Expression.constant_kept]
  cases relation with
  | equal =>
      cases Expression.termList ⟨terms, constant, .equal⟩ with
      | nil => rfl
      | cons first rest =>
          cases rest with
          | nil =>
              by_cases small : Scalar.nearZero constant = true <;> simp [small, Term.kept]
          | cons second rest => rfl
  | _ => rfl

namespace Literal

def kept (literal : Literal) : Literal := { literal with participant := literal.participant.kept }

@[simp]
theorem assignment_kept (literal : Literal) : literal.kept.assignment = literal.assignment := rfl

theorem ofValue_alike (value : Value α) :
    Alike kept (ofValue value) (ofValue value.kept) := by
  have reason := Error.kept_unsupported value
  cases value with
  | handle handle => exact .ok rfl
  | expression number expression =>
      simp only [Value.kept, ofValue, zeroed?_kept]
      cases zeroed? expression with
      | none => exact .error (by simp [Error.kept])
      | some participant => exact .ok (by simp [kept])
  | _ => exact .error reason

end Literal

namespace Reading

variable {δ : Type}

/-- What is made of the last of several things can be made of all of them. -/
theorem both_map {adapt : β → β} {whole : γ → γ}
    {first : Reading (β → γ)} {second : Reading β}
    (agrees : ∀ function, first.value? = some function → ∀ value,
      function (adapt value) = whole (function value)) :
    both first (second.map adapt) = (both first second).map whole := by
  obtain ⟨function?, earlier⟩ := first
  obtain ⟨value?, later⟩ := second
  cases function? with
  | none => rfl
  | some function =>
      cases value? with
      | none => rfl
      | some value => simp [both, map, agrees function rfl value]

theorem satisfying_map {reading : Reading β} {adapt : β → β} {rule : β → Bool}
    {place : List String} {fault : Fault} (blind : ∀ value, rule (adapt value) = rule value) :
    (reading.map adapt).satisfying rule place fault =
      (reading.satisfying rule place fault).map adapt := by
  obtain ⟨value?, issues⟩ := reading
  cases value? with
  | none => rfl
  | some value =>
      simp only [map, satisfying, Option.map_some, blind]
      split <;> rfl

theorem conclude_map {reading : Reading β} {adapt : β → γ} (subject : Value α) :
    (reading.map adapt).conclude subject = (reading.conclude subject).map adapt := by
  obtain ⟨value?, issues⟩ := reading
  cases value? <;> cases issues <;> rfl

end Reading

namespace Reader

/-- A reader that takes no notice of handles. -/
def Blind (reader : Reader α β) : Prop := ∀ value, reader value.kept = reader value

theorem blind_refuse (expected : String) : Blind (α := α) (refuse (β := β) expected) := by
  intro value
  cases value <;> rfl

theorem blind_text : Blind (α := α) text := by
  intro value
  cases value <;> rfl

theorem blind_number : Blind (α := α) number := by
  intro value
  cases value <;> rfl

theorem blind_finiteNumber : Blind (α := α) finiteNumber := by
  intro value
  rw [finiteNumber, blind_number, finiteNumber]

theorem blind_code (codes : List String) (decode : String → Option β) :
    Blind (α := α) (code codes decode) := by
  intro value
  cases value <;> rfl

theorem blind_status : Blind (α := α) status := by
  intro value
  cases value <;> rfl

variable {reader : Reader α β}

theorem Blind.optional (blind : Blind reader) : Blind reader.optional := by
  intro value
  have same := blind value
  cases value with
  | missing => rfl
  | _ => exact congrArg (Reading.map some) same

theorem Blind.withDefault (blind : Blind reader) (fallback : β) :
    Blind (reader.withDefault fallback) := by
  intro value
  have same := blind value
  cases value with
  | missing => rfl
  | _ => exact same

theorem Blind.itemsFrom (blind : Blind reader) (position : Nat) (items : List (Value α)) :
    itemsFrom reader position (Value.keptItems items) = itemsFrom reader position items := by
  induction items generalizing position with
  | nil => rfl
  | cons item rest induction =>
      rw [Value.keptItems, Reader.itemsFrom, Reader.itemsFrom, blind, induction]

theorem Blind.list (blind : Blind reader) : Blind reader.list := by
  intro value
  cases value with
  | list items tag => exact blind.itemsFrom 0 items
  | _ => rfl

theorem Blind.member (blind : Blind reader) (name : String) : Blind (reader.member name) := by
  intro value
  rw [Reader.member, Value.member_kept, Value.keptMember_congr _ blind]
  rfl

theorem Blind.object (blind : Blind reader) : Blind reader.object := by
  intro value
  rw [Reader.object, Reader.object, Value.optionType_kept, blind, blind_refuse]

theorem Blind.require (blind : Blind reader) (subject : String) (value : Value α) :
    reader.require subject value.kept = reader.require subject value := by
  rw [Reader.require, requireFor, blind]
  rfl

theorem optional_column_keptMember (value : Value α) :
    column.optional value.keptMember =
      (column.optional value).map (Option.map Column.kept) := by
  cases value <;> rfl

end Reader

theorem ModelOptions.blind_read : Reader.Blind (α := α) ModelOptions.read := by
  apply Reader.Blind.object
  intro value
  have name := (Reader.blind_text.withDefault "").member "name" value
  have direction : Reader.Blind (α := α) Reader.direction := Reader.blind_code _ _
  dsimp only
  rw [name, (direction.withDefault .minimize).member "sense" value]

def VariableOptions.kept (options : VariableOptions α) : VariableOptions α :=
  { options with column := options.column.map Column.kept }

namespace VariableOptions

/-- All members but the column. -/
private def scalars (value : Value α) : Reading (Option (Column α) → VariableOptions α) :=
  mk <$> Reader.member "name" Reader.text.optional value
    <*> Reader.member "lb" (Reader.bound.withDefault 0) value
    <*> Reader.member "ub" (Reader.bound.withDefault Scalar.infinity) value
    <*> Reader.member "obj" (Reader.objective.withDefault 0) value
    <*> Reader.member "varType" (Reader.kind.withDefault .continuous) value

private theorem scalars_kept (value : Value α) : scalars value.kept = scalars value := by
  have bound : Reader.Blind (α := α) Reader.bound := Reader.blind_number
  have objective : Reader.Blind (α := α) Reader.objective := Reader.blind_finiteNumber
  have kind : Reader.Blind (α := α) Reader.kind := Reader.blind_code _ _
  rw [scalars, Reader.blind_text.optional.member "name" value,
    (bound.withDefault 0).member "lb" value,
    (bound.withDefault Scalar.infinity).member "ub" value,
    (objective.withDefault 0).member "obj" value,
    (kind.withDefault .continuous).member "varType" value, scalars]

/-- A column is taken over as it is. -/
private theorem scalars_column {value : Value α} {make : Option (Column α) → VariableOptions α}
    (found : (scalars value).value? = some make) (column : Option (Column α)) :
    make (column.map Column.kept) = (make column).kept := by
  unfold scalars at found
  generalize Reader.member "name" Reader.text.optional value = name at found
  generalize Reader.member "lb" (Reader.bound.withDefault 0) value = lower at found
  generalize Reader.member "ub" (Reader.bound.withDefault Scalar.infinity) value = upper at found
  generalize Reader.member "obj" (Reader.objective.withDefault 0) value = objective at found
  generalize Reader.member "varType" (Reader.kind.withDefault .continuous) value = kind at found
  obtain ⟨_ | name, _⟩ := name
  · cases found
  obtain ⟨_ | lower, _⟩ := lower
  · cases found
  obtain ⟨_ | upper, _⟩ := upper
  · cases found
  obtain ⟨_ | objective, _⟩ := objective
  · cases found
  obtain ⟨_ | kind, _⟩ := kind
  · cases found
  cases found
  rfl

private theorem read_of_object {value : Value α} (object : value.optionType = "object") :
    read value = (Reading.both (scalars value)
      (Reader.member "column" Reader.column.optional value)).satisfying
        (fun options => boundsOrdered options.lower options.upper) crossedBounds.path
        crossedBounds.fault := by
  rw [read, Reader.object, if_pos object]
  rfl

/-- Options are read alike, apart from the handles in their column. -/
theorem read_kept (value : Value α) : read value.kept = (read value).map kept := by
  by_cases object : value.optionType = "object"
  · have column : Reader.member "column" Reader.column.optional value.kept =
        (Reader.member "column" Reader.column.optional value).map (Option.map Column.kept) := by
      rw [Reader.member, Value.member_kept, Reader.optional_column_keptMember]
      rfl
    rw [read_of_object object, read_of_object (value.optionType_kept.trans object),
      scalars_kept, column, Reading.both_map (fun _ found => scalars_column found),
      Reading.satisfying_map]
    exact fun _ => rfl
  · have other : value.kept.optionType ≠ "object" := by
      rwa [Value.optionType_kept]
    rw [read, Reader.object, Reader.object, if_neg object, if_neg other]
    cases value <;> rfl

end VariableOptions

theorem SolutionData.blind_read : Reader.Blind (α := α) SolutionData.read := by
  apply Reader.Blind.object
  intro value
  have number : Reader.Blind (α := α) Reader.number := Reader.blind_number
  dsimp only
  rw [Reader.blind_status.member "status" value,
    number.optional.member "objectiveValue" value,
    (number.list.withDefault []).member "x" value,
    number.list.list.optional.member "pool" value,
    number.list.optional.member "rc" value, number.list.optional.member "pi" value]

namespace Column

/-- What is shown of the entries of a column. -/
def keptEntry (entry : Participant × α) : Participant × α := (entry.1.kept, entry.2)

private theorem ok_congr {first second : Column α} (same : first.entries = second.entries) :
    (.ok first : Except (Error α) (Column α)) = .ok second := by
  cases first
  cases second
  cases same
  rfl

theorem pair_kept (constraints : List Participant) (coefficients : List α) :
    pair (constraints.map Participant.kept) coefficients =
      (pair constraints coefficients).map kept := by
  simp only [pair, List.length_map]
  split
  · rfl
  · split
    · rfl
    · apply ok_congr
      exact List.zip_map_left

theorem pair_alike {constraints others : List Participant} {coefficients : List α}
    (same : constraints.map Participant.kept = others.map Participant.kept) :
    Alike kept (pair constraints coefficients) (pair others coefficients) := by
  apply Alike.of_map_eq
  rw [← pair_kept, ← pair_kept, same]

theorem build_alike (constraints coefficients : Value α) :
    Alike kept (build constraints coefficients) (build constraints.kept coefficients.kept) := by
  have lengths : constraints.kept.length.identical coefficients.kept.length =
      constraints.length.identical coefficients.length := by
    rw [Value.length_kept, Value.length_kept, Value.identical_keptMember]
  unfold build
  rw [lengths]
  split
  · have numbers : Alike (List.map id) (coefficients.items.mapM Value.finite)
        (coefficients.kept.items.mapM Value.finite) := by
      apply Check.alike_mapM (fun _ _ same => Value.alike_of_kept Value.finite_alike same)
      simp [Value.items_kept]
    refine numbers.bind (fun result counterpart same => ?_)
    simp only [List.map_id] at same
    subst same
    have participants : Alike (List.map Participant.kept)
        (constraints.items.mapM Value.participant)
        (constraints.kept.items.mapM Value.participant) := by
      apply Check.alike_mapM (fun _ _ same => Value.alike_of_kept Value.participant_alike same)
      simp [Value.items_kept]
    exact participants.bind (fun _ _ same => pair_alike same)
  · exact .error (by simp [Error.kept, Value.length_kept])

/-- A constraint that is given with a coefficient, at the position of the latter. -/
private theorem entry_alike {coefficients others : Value α}
    (same : ∀ position, (coefficients.item position).kept = (others.item position).kept)
    {first second : Value α × Nat} (given : (first.1.kept, first.2) = (second.1.kept, second.2)) :
    Alike keptEntry
      (do return (← first.1.participant, (coefficients.item first.2).amount))
      (do return (← second.1.participant, (others.item second.2).amount)) := by
  obtain ⟨constraint, position⟩ := first
  obtain ⟨other, counterpart⟩ := second
  obtain ⟨held, rfl⟩ := Prod.mk.inj given
  have amounts : (coefficients.item position).amount = (others.item position).amount := by
    rw [← Value.amount_kept, same, Value.amount_kept]
  refine Alike.bind (Value.alike_of_kept Value.participant_alike held) (fun _ _ same => ?_)
  exact .ok (by rw [keptEntry, keptEntry, same, amounts])

theorem entriesOf_alike (value : Value α) :
    Alike (List.map keptEntry) (entriesOf value) (entriesOf value.kept) := by
  have reason := Error.kept_unsupported value
  cases value with
  | column tag column => exact .ok (by simp [keptEntry])
  | record members tag =>
      have amounts (position : Nat) :
          (((Value.record members tag).member "coeffs").item position).kept =
            (((Value.record members tag).kept.member "coeffs").item position).kept := by
        rw [Value.member_kept, Value.item_keptMember]
      have stated := (Value.record members tag).member_kept "constrs"
      simp only [Value.kept] at stated amounts reason ⊢
      simp only [entriesOf, stated]
      cases (Value.record members tag).member "constrs" with
      | list constraints mark =>
          have corresponding : constraints.zipIdx.map (fun entry => (entry.1.kept, entry.2)) =
              (Value.keptItems constraints).zipIdx.map (fun entry => (entry.1.kept, entry.2)) := by
            rw [Value.keptItems_eq_map, List.zipIdx_map, List.map_map]
            apply List.map_congr_left
            intro entry _
            simp
          exact Check.alike_mapM (fun _ _ given => entry_alike amounts given) corresponding
      | _ => exact .error reason
  | _ => exact .error reason

end Column

end LinearProgram
