import LinearProgram.Proofs.Handles.Workspaces
import LinearProgram.Proofs.Workspace.Runs

/-!
# Runs with kept handles

Two runs whose steps differ in the handles of their arguments go through workspaces
that differ in nothing but the handles that expressions and named objects hold.  Each
call succeeds in both or is refused in both, for the same reason.
-/

namespace LinearProgram

variable {α : Type} [Scalar α]

/-- What a caller is told of a refusal. -/
structure Refusal where
  kind : ErrorKind
  issues? : Option (List Issue)
  /-- What the type of a value is called that was received instead of another one. -/
  received? : Option String
  message : String
  deriving DecidableEq, Repr

def Error.refusal (naming : Naming) (error : Error α) : Refusal where
  kind := error.kind
  issues? := error.issues?
  received? := error.received?.map (fun value => naming.plain (naming.typeOf value))
  message := error.message naming

theorem Error.refusal_kept (naming : Naming) (error : Error α) :
    error.kept.refusal naming = error.refusal naming := by
  simp [refusal, Function.comp_def]

namespace Workspace

/-- What a caller is told: the error that is reported, in writing. -/
def told (workspace : Workspace α) (error : Error α) : Refusal :=
  (workspace.reported error).refusal workspace.naming

/-- The answer to a question, or what a caller is told if it can not be answered. -/
def answer {β : Type} (workspace : Workspace α) (outcome : Except (Error α) β) :
    Except Refusal β :=
  outcome.mapError workspace.told

/-- What becomes of a call. -/
def response (workspace : Workspace α) (step : Step α) : Except Refusal Unit :=
  match step.apply workspace with
  | .ok _ _ => .ok ()
  | .error error changed => .error (changed.told error)

/-- What becomes of the calls of a run, one after the other. -/
def responses (workspace : Workspace α) : List (Step α) → List (Except Refusal Unit)
  | [] => []
  | step :: rest => workspace.response step :: responses (workspace.after step) rest

section Pairs

variable {first second : Workspace α} (same : first.kept = second.kept)

include same

theorem models_of_kept : first.models = second.models := (congrArg models same :)

theorem model_of_kept : first.model = second.model := by
  funext reference
  rw [model, model, models_of_kept same]

theorem tagCount_of_kept : first.tagCount = second.tagCount := (congrArg tagCount same :)

theorem heap_of_kept : first.heap.kept = second.heap.kept := (congrArg heap same :)

theorem objects_of_kept : first.objects.map Named.kept = second.objects.map Named.kept :=
  (congrArg objects same :)

theorem kept_withHeap {heap other : Heap α} (heaps : heap.kept = other.kept) :
    kept { first with heap } = kept { second with heap := other } := by
  simp only [kept, heaps, models_of_kept same, tagCount_of_kept same, objects_of_kept same]

theorem kept_withModels (models : List (Model α)) :
    kept { first with models } = kept { second with models } := by
  simp only [kept, heap_of_kept same, tagCount_of_kept same, objects_of_kept same]

theorem kept_withTags (tagCount : Nat) :
    kept { first with tagCount } = kept { second with tagCount } := by
  simp only [kept, heap_of_kept same, models_of_kept same, objects_of_kept same]

theorem naming_of_kept : first.naming = second.naming := by
  rw [← first.naming_kept, same, naming_kept]

theorem told_of_kept {reason other : Error α} (errors : reason.kept = other.kept) :
    first.told reason = second.told other := by
  have reported : (first.reported reason).kept = (second.reported other).kept := by
    rw [← kept_reported, same, errors, kept_reported]
  rw [told, told, ← Error.refusal_kept, reported, Error.refusal_kept, naming_of_kept same]

theorem answer_of_alike {β γ : Type} {view : β → γ} {outcome other : Except (Error α) β}
    (alike : Check.Alike view outcome other) :
    first.answer (outcome.map view) = second.answer (other.map view) := by
  cases alike with
  | ok results => exact congrArg Except.ok results
  | error reasons => exact congrArg Except.error (told_of_kept same reasons)

/-- What takes no notice of kept handles takes no notice of any handles. -/
theorem alike_of_kept {β γ : Type} {view : β → γ}
    {read : Workspace α → Value α → Except (Error α) β}
    (blind : ∀ workspace value,
      Check.Alike view (read workspace value) (read workspace.kept value.kept))
    {value other : Value α} (values : value.kept = other.kept) :
    Check.Alike view (read first value) (read second other) := by
  have late := blind second other
  rw [← same, ← values] at late
  exact (blind first value).trans late.symm

theorem expression_of_kept (number : Nat) :
    (first.expression number).kept = (second.expression number).kept := by
  rw [← expression_kept, same, expression_kept]

theorem amount_of_kept {value other : Value α} (values : value.kept = other.kept) :
    first.amount value = second.amount other := by
  rw [← amount_kept, same, values, amount_kept]

theorem presentParticipant_of_kept {participant other : Participant}
    (participants : participant.kept = other.kept) :
    (first.presentParticipant participant).kept = (second.presentParticipant other).kept := by
  rw [← presentParticipant_kept, same, participants, presentParticipant_kept]

theorem object?_of_kept (name : String) :
    (first.object? name).map Value.kept = (second.object? name).map Value.kept := by
  rw [← object?_kept, same, object?_kept]

end Pairs

/-- What is seen of a kept handle is a kept handle. -/
theorem kept_presentParticipant (workspace : Workspace α) (participant : Participant) :
    (workspace.presentParticipant participant.kept).kept =
      workspace.presentParticipant participant.kept := by
  obtain ⟨owner, index, role⟩ := participant
  cases role <;> rfl

theorem outlook_of_kept {first second : Workspace α} (same : first.kept = second.kept) :
    first.outlook.Alike second.outlook where
  see participant :=
    (presentParticipant_of_kept same participant.kept_kept.symm).trans
      (second.kept_presentParticipant participant)
  reckon value := amount_of_kept same.symm value.kept_keptMember
  seeKept participant :=
    (presentParticipant_of_kept rfl participant.kept_kept.symm).trans
      (second.kept_presentParticipant participant)

/-- A step with the kept handles in its arguments.  An index for which a handle is made
is no handle itself. -/
def Step.kept : Step α → Step α
  | createModel options => createModel options.kept
  | make making => make making.kept
  | .edit name given => .edit name given.kept
  | assign name value => assign name value.kept
  | makeVariable reference index => makeVariable reference index
  | makeConstraint reference index => makeConstraint reference index
  | addVariable reference options => addVariable reference options.kept
  | addConstraint reference body name => addConstraint reference body.kept name
  | setExpression constraint body => setExpression constraint.kept body.kept
  | setRightHandSide constraint value => setRightHandSide constraint.kept value.kept
  | loadSolution reference data => loadSolution reference data.kept
  | .change reference given => .change reference given.kept

section Steps

open Update (Alike)

/-- Updates of a workspace that do the same, up to the handles that it holds. -/
abbrev UpdatesAlike {β γ : Type} (view : β → γ) (first second : WorkspaceUpdate α β) : Prop :=
  Alike Workspace.kept view first second

variable {β γ : Type}

theorem discard_alike {view : β → γ} {first second : WorkspaceUpdate α β}
    (alike : UpdatesAlike view first second) :
    UpdatesAlike id (discard first) (discard second) :=
  alike.bind (fun _ _ _ => .pure rfl)

theorem assign_alike (name : String) (value : Value α) :
    UpdatesAlike id (assign name value) (assign name value.kept) := by
  apply Alike.modify
  intro first second same
  have objects : (first.objects.insert name (.ofValue value)).map Named.kept =
      (second.objects.insert name (.ofValue value.kept)).map Named.kept := by
    rw [OrderedMap.map_insert, OrderedMap.map_insert, objects_of_kept same,
      ← Named.ofValue_kept, ← Named.ofValue_kept, Value.kept_kept]
  simp only [Workspace.kept, objects, models_of_kept same, tagCount_of_kept same,
    heap_of_kept same]

theorem onHeap_alike {first second : HeapUpdate α β}
    (alike : Alike Heap.kept id first second) :
    UpdatesAlike id (onHeap first) (onHeap second) := by
  refine .bind_get (fun one other same => ?_)
  have ends := alike one.heap other.heap (heap_of_kept same)
  generalize first one.heap = outcome at ends
  generalize second other.heap = opposite at ends
  cases ends with
  | ok results heaps =>
      refine Alike.bind (.set (kept_withHeap same heaps)) (fun _ _ _ => ?_)
      exact .pure results
  | error reasons heaps =>
      refine Alike.bind (.set (kept_withHeap same heaps)) (fun _ _ _ => ?_)
      exact .throw reasons

theorem make_alike (making : Heap.Making α) :
    UpdatesAlike Value.kept (make making) (make making.kept) := by
  refine .bind_get (fun first second same => ?_)
  refine Alike.bind (onHeap_alike (Heap.make_alike (outlook_of_kept same) making)) ?_
  intro number _ numbers
  cases numbers
  refine .bind_get (fun later further same => ?_)
  exact .pure (congrArg (Value.expression number) (expression_of_kept same number))

theorem createModel_alike (options : Value α) :
    UpdatesAlike id (createModel options) (createModel options.kept) := by
  have given : options.kept.orElse .noOptions = (options.orElse .noOptions).kept :=
    options.orElse_kept .noOptions
  refine .bind_get (fun first second same => ?_)
  rw [given]
  have read := alike_of_kept same (fun workspace => workspace.asRecord_alike ModelOptions.names)
    (options.orElse .noOptions).kept_kept.symm
  refine .bind_check read (fun record other records => ?_)
  have blind := ModelOptions.blind_read (α := α) |>.require "model options"
  rw [← blind record, records, blind other]
  refine .after_check (fun options => .bind_get (fun later further laters => ?_))
  rw [models_of_kept laters]
  refine Alike.bind (.modify (fun one other states => ?_)) (fun _ _ _ => .pure rfl)
  rw [models_of_kept states]
  exact kept_withModels states _

theorem freshTag_alike : UpdatesAlike (α := α) id freshTag freshTag := by
  refine .bind_get (fun first second same => ?_)
  dsimp only
  rw [tagCount_of_kept same]
  refine Alike.bind (.modify (fun _ _ states => kept_withTags states _)) (fun _ _ _ => ?_)
  exact .pure rfl

theorem makeVariable_alike (reference : ModelRef) (index : Value α) :
    UpdatesAlike id (makeVariable reference index) (makeVariable reference index) :=
  freshTag_alike.bind (fun tag _ same => .pure (by cases same; rfl))

theorem makeConstraint_alike (reference : ModelRef) (index : Value α) :
    UpdatesAlike id (makeConstraint reference index) (makeConstraint reference index) :=
  freshTag_alike.bind (fun tag _ same => .pure (by cases same; rfl))

theorem change_alike (reference : ModelRef) {first second : ModelUpdate α β}
    (alike : Model.UpdatesAlike first second) :
    UpdatesAlike id (change reference first) (change reference second) := by
  refine .bind_get (fun one other same => ?_)
  rw [model_of_kept same]
  have put (model : Model α) : (one.putModel model).kept = (other.putModel model).kept := by
    rw [putModel, putModel, models_of_kept same]
    exact kept_withModels same _
  have ends := alike (other.model reference) (other.model reference) rfl
  generalize first (other.model reference) = outcome at ends
  generalize second (other.model reference) = opposite at ends
  cases ends with
  | ok results models =>
      cases models
      exact Alike.bind (.set (put _)) (fun _ _ _ => .pure results)
  | error reasons models =>
      cases models
      exact Alike.bind (.set (put _)) (fun _ _ _ => .throw reasons)

/-- The expression object that a named object is, if it is one. -/
private def editable : Option (Value α) → Except (Error α) Nat
  | some (.expression number _) => .ok number
  | other => .error (.unsupported (other.getD .missing))

private theorem edit_eq (name : String) (given : Expression.Edit α) :
    edit name given = (do
      let workspace ← get
      let number ← editable (workspace.object? name)
      onHeap (Heap.edit workspace.outlook number given)
      return (← get).expression number) := by
  refine congrArg (fun next : Workspace α → WorkspaceUpdate α _ => get >>= next) ?_
  funext workspace
  cases workspace.object? name with
  | none => rfl
  | some value => cases value <;> rfl

private theorem editable_alike {found opposite : Option (Value α)}
    (same : found.map Value.kept = opposite.map Value.kept) :
    Check.Alike id (editable found) (editable opposite) := by
  refine .of_blind (fun given => ?_) same
  cases given with
  | none => exact .refl _
  | some value =>
      have reason := Error.kept_unsupported value
      cases value <;> first | exact .ok rfl | exact .error reason

theorem edit_alike (name : String) (given : Expression.Edit α) :
    UpdatesAlike Expression.kept (edit name given) (edit name given.kept) := by
  rw [edit_eq, edit_eq]
  refine .bind_get (fun first second same => ?_)
  refine .bind_check (editable_alike (object?_of_kept same name)) (fun number _ numbers => ?_)
  cases numbers
  refine Alike.bind (onHeap_alike (Heap.edit_alike (outlook_of_kept same) number given)) ?_
  intro _ _ _
  exact .bind_get (fun _ _ states => .pure (expression_of_kept states number))

/-- Options are read and then given to the model. -/
private theorem withRecord_alike {names : List String} (reference : ModelRef) (options : Value α)
    {update : Value α → ModelUpdate α β} (blind : ∀ record, update record.kept = update record) :
    UpdatesAlike id
      (do
        let record ← (← get).asRecord names options
        change reference (update record))
      (do
        let record ← (← get).asRecord names options.kept
        change reference (update record)) := by
  refine .bind_get (fun first second same => ?_)
  have read := alike_of_kept same (fun workspace => workspace.asRecord_alike names)
    options.kept_kept.symm
  refine .bind_check read (fun record other records => ?_)
  rw [← blind record, records, blind other]
  exact change_alike reference (.refl _)

/-- A constraint is made of an expression and then given to the model. -/
private theorem withBody_alike (reference : ModelRef) (body : Value α) {foreign other : Error α}
    (reasons : foreign = other) (update : Expression α → ModelUpdate α β)
    (blind : ∀ expression, update expression.kept = update expression) :
    UpdatesAlike id
      (do
        let expression ← (← get).constraintBody reference body foreign
        change reference (update expression))
      (do
        let expression ← (← get).constraintBody reference body.kept other
        change reference (update expression)) := by
  cases reasons
  refine .bind_get (fun first second same => ?_)
  have read := alike_of_kept same
    (fun workspace value => workspace.constraintBody_alike reference value foreign)
    body.kept_kept.symm
  refine .bind_check read (fun expression counterpart expressions => ?_)
  rw [← blind expression, expressions, blind counterpart]
  exact change_alike reference (.refl _)

/-- Steps that differ in the handles of their arguments do the same. -/
theorem Step.alike (step : Step α) : UpdatesAlike id step.apply step.kept.apply := by
  cases step with
  | createModel options => exact discard_alike (createModel_alike options)
  | make making => exact discard_alike (make_alike making)
  | edit name given => exact discard_alike (edit_alike name given)
  | assign name value => exact assign_alike name value
  | makeVariable reference index => exact discard_alike (makeVariable_alike reference index)
  | makeConstraint reference index => exact discard_alike (makeConstraint_alike reference index)
  | addVariable reference options =>
      exact discard_alike (withRecord_alike reference options Model.addVariable_kept)
  | addConstraint reference body name =>
      have reasons : (Error.foreignExpression body.owner : Error α) =
          .foreignExpression body.kept.owner := by
        rw [body.owner_kept]
      exact discard_alike (withBody_alike reference body reasons
        (fun expression => Model.addConstraint expression name)
        (fun expression => Model.addConstraint_kept expression name))
  | setExpression constraint body =>
      exact withBody_alike constraint.model body rfl (Model.setExpression constraint.index)
        (fun expression => Model.setExpression_kept constraint.index expression)
  | setRightHandSide constraint value =>
      refine .bind_get (fun first second same => ?_)
      rw [amount_of_kept same value.kept_kept.symm]
      exact .after_check (fun number => change_alike constraint.model (.refl _))
  | loadSolution reference data =>
      exact withRecord_alike reference data Model.loadSolution_kept
  | change reference given => exact change_alike reference given.alike

end Steps

section Runs

variable {first second : Workspace α}

/-- What one call does: to workspaces that differ in handles alone, calls that differ in
handles alone do the same, and so what becomes of them is the same. -/
theorem after_of_kept (same : first.kept = second.kept) {step other : Step α}
    (steps : step.kept = other.kept) :
    first.response step = second.response other ∧
      (first.after step).kept = (second.after other).kept := by
  have late := other.alike
  rw [← steps] at late
  have ends := step.alike.trans_symm late first second same
  unfold response after
  generalize step.apply first = outcome at ends
  generalize other.apply second = opposite at ends
  cases ends with
  | ok _ states => exact ⟨rfl, states⟩
  | error reasons states => exact ⟨congrArg Except.error (told_of_kept states reasons), states⟩

/-- What a whole run does. -/
theorem run_of_kept (same : first.kept = second.kept) {steps others : List (Step α)}
    (corresponding : steps.map Step.kept = others.map Step.kept) :
    first.responses steps = second.responses others ∧
      (first.run steps).kept = (second.run others).kept := by
  induction steps generalizing others first second with
  | nil =>
      cases others with
      | nil => exact ⟨rfl, same⟩
      | cons _ _ => cases corresponding
  | cons step steps induction =>
      cases others with
      | nil => cases corresponding
      | cons other others =>
          obtain ⟨head, rest⟩ := List.cons.inj corresponding
          obtain ⟨answers, states⟩ := after_of_kept same head
          obtain ⟨later, ending⟩ := induction states rest
          exact ⟨congrArg₂ List.cons answers later, ending⟩

end Runs

end Workspace

end LinearProgram
