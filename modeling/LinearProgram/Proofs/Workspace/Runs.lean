import LinearProgram.Proofs.Model.BinaryBounds
import LinearProgram.Proofs.Model.Handles
import LinearProgram.Workspace.Change

/-!
# Runs of a workspace

A caller creates models, makes and edits expressions, and changes the models, in
any order and with any arguments.  Each step reaches one model at most, and does
to it what one change of a model does, with the arguments as they are read at
that moment.  So every model of a workspace is what a run of its own changes
makes of a new model, and what holds throughout all runs of a model holds of all
models at all times.
-/

namespace LinearProgram.Workspace

variable {α : Type} [Scalar α]

/-- What a caller can do with a workspace. -/
inductive Step (α : Type) [Scalar α] where
  | createModel (options : Value α)
  | make (making : Heap.Making α)
  | edit (name : String) (given : Expression.Edit α)
  | assign (name : String) (value : Value α)
  | makeVariable (reference : ModelRef) (index : Value α)
  | makeConstraint (reference : ModelRef) (index : Value α)
  | addVariable (reference : ModelRef) (options : Value α)
  | addConstraint (reference : ModelRef) (body : Value α) (name : String)
  | setExpression (constraint : Constraint) (body : Value α)
  | setRightHandSide (constraint : Constraint) (value : Value α)
  | loadSolution (reference : ModelRef) (data : Value α)
  | change (reference : ModelRef) (given : Model.Change α)

def Step.apply : Step α → WorkspaceUpdate α Unit
  | createModel options => discard (Workspace.createModel options)
  | make making => discard (Workspace.make making)
  | .edit name given => discard (Workspace.edit name given)
  | assign name value => Workspace.assign name value
  | makeVariable reference index =>
    discard (Workspace.makeVariable reference index)
  | makeConstraint reference index =>
    discard (Workspace.makeConstraint reference index)
  | addVariable reference options =>
    discard (Workspace.addVariable reference options)
  | addConstraint reference body name =>
    discard (Workspace.addConstraint reference body name)
  | setExpression constraint body => Workspace.setExpression constraint body
  | setRightHandSide constraint value =>
    Workspace.setRightHandSide constraint value
  | loadSolution reference data => Workspace.loadSolution reference data
  | .change reference given => Workspace.change reference given.apply

/-- Whether a step comes with its checks. -/
def Step.asks : Step α → Bool
  | change _ given => given.asks
  | _ => true

/-- Whether a step enters a variable or a constraint for which no handle is kept. -/
def Step.registers : Step α → Bool
  | change _ given => given.registers
  | _ => false

/-- The workspace after a step, whether that succeeded or was refused. -/
def after (workspace : Workspace α) (step : Step α) : Workspace α :=
  match step.apply workspace with
  | .ok _ changed | .error _ changed => changed

def run (workspace : Workspace α) (steps : List (Step α)) : Workspace α :=
  steps.foldl after workspace

/-- What an empty workspace becomes by steps. -/
def reached (steps : List (Step α)) : Workspace α := run {} steps

theorem run_concat (workspace : Workspace α) (steps : List (Step α))
    (step : Step α) :
    workspace.run (steps ++ [step]) = (workspace.run steps).after step := by
  simp [run]

theorem reached_concat (steps : List (Step α)) (step : Step α) :
    reached (steps ++ [step]) = (reached steps).after step :=
  run_concat {} steps step

/-- The change that a step makes to a model, once its arguments are read. -/
inductive Step.Meets (workspace : Workspace α) :
    Step α → ModelRef → Model.Change α → Prop
  | addVariable {reference : ModelRef} {given options : Value α}
      (read : workspace.asRecord VariableOptions.names given = .ok options) :
      Meets workspace (.addVariable reference given) reference
        (.addVariable options)
  | addConstraint {reference : ModelRef} {body : Value α} {name : String}
      {expression : Expression α}
      (read : workspace.constraintBody reference body
        (.foreignExpression body.owner) = .ok expression) :
      Meets workspace (.addConstraint reference body name) reference
        (.addConstraint expression name)
  | setExpression {constraint : Constraint} {body : Value α}
      {expression : Expression α}
      (read : workspace.constraintBody constraint.model body
        (.foreignReplacement constraint.index) = .ok expression) :
      Meets workspace (.setExpression constraint body) constraint.model
        (.setExpression constraint.index expression)
  | setRightHandSide {constraint : Constraint} {given : Value α} {value : α}
      (read : workspace.amount given = .ok value) :
      Meets workspace (.setRightHandSide constraint given) constraint.model
        (.setRightHandSide constraint.index value)
  | loadSolution {reference : ModelRef} {given data : Value α}
      (read : workspace.asRecord SolutionData.names given = .ok data) :
      Meets workspace (.loadSolution reference given) reference
        (.loadSolution data)
  | change {reference : ModelRef} {given : Model.Change α} :
      Meets workspace (.change reference given) reference given

section Meeting

variable {β : Type} {workspace : Workspace α} {step : Step α}
  {reference : ModelRef} {change : Model.Change α}

private theorem looked : (get : WorkspaceUpdate α (Workspace α)) workspace =
    .ok workspace workspace :=
  rfl

theorem change_of_ok {update : ModelUpdate α β} {result : β} {model : Model α}
    (success : update (workspace.model reference) = .ok result model) :
    Workspace.change reference update workspace =
      .ok result (workspace.putModel model) := by
  refine (Update.bind_of_ok looked).trans ?_
  rw [success]
  rfl

theorem change_of_error {update : ModelUpdate α β} {error : Error α}
    {model : Model α}
    (failure : update (workspace.model reference) = .error error model) :
    Workspace.change reference update workspace =
      .error error (workspace.putModel model) := by
  refine (Update.bind_of_ok looked).trans ?_
  rw [failure]
  rfl

private theorem discard_congr {first second : WorkspaceUpdate α β}
    (same : first workspace = second workspace) :
    discard first workspace = discard second workspace := by
  cases outcome : second workspace with
  | ok result final =>
      rw [outcome] at same
      have discarded : discard second workspace = .ok () final :=
        Update.bind_of_ok outcome
      rw [discarded]
      exact Update.bind_of_ok same
  | error error final =>
      rw [outcome] at same
      have discarded : discard second workspace = .error error final :=
        Update.bind_of_error outcome
      rw [discarded]
      exact Update.bind_of_error same

private theorem discard_change (update : ModelUpdate α β) :
    discard (Workspace.change reference update) workspace =
      Workspace.change reference (discard update) workspace := by
  cases outcome : update (workspace.model reference) with
  | ok result model =>
      have discarded : discard update (workspace.model reference) =
          .ok () model := Update.bind_of_ok outcome
      rw [change_of_ok discarded]
      exact Update.bind_of_ok (change_of_ok outcome)
  | error error model =>
      have discarded : discard update (workspace.model reference) =
          .error error model := Update.bind_of_error outcome
      rw [change_of_error discarded]
      exact Update.bind_of_error (change_of_error outcome)

/-- A step whose arguments can be read is nothing but the change that it makes. -/
theorem Step.Meets.apply_eq (meets : step.Meets workspace reference change) :
    step.apply workspace = Workspace.change reference change.apply workspace := by
  cases meets with
  | @addVariable reference given options read =>
      refine Eq.trans ?_ (discard_change (Model.addVariable options))
      exact discard_congr (Update.bind_of_check read)
  | @addConstraint reference body name expression read =>
      refine Eq.trans ?_ (discard_change (Model.addConstraint expression name))
      exact discard_congr (Update.bind_of_check read)
  | setExpression read => exact Update.bind_of_check read
  | setRightHandSide read => exact Update.bind_of_check read
  | loadSolution read => exact Update.bind_of_check read
  | change => rfl

end Meeting

/-- What a step does to the models: nothing, or one more model, or one change of
one of them. -/
inductive Effect (workspace : Workspace α) (step : Step α)
    (models : List (Model α)) : Prop
  | aside (same : models = workspace.models)
  | created (name : String) (direction : Direction)
      (added : models = workspace.models ++
        [Model.new ⟨workspace.models.length, name⟩ direction])
  | changed {reference : ModelRef} {change : Model.Change α}
      (meets : step.Meets workspace reference change)
      (written : models = workspace.models.set
        (workspace.model reference).reference.id
        ((workspace.model reference).after change))

section Effects

open Update (Leaves)

variable {β : Type} {workspace : Workspace α} {step : Step α}

private theorem leaves_onHeap (update : HeapUpdate α β) :
    Leaves workspace (onHeap update)
      (fun final => Effect workspace step final.models) := by
  apply Leaves.after_get
  unfold Leaves
  cases update workspace.heap <;> exact .aside rfl

private theorem leaves_make (making : Heap.Making α) :
    Leaves workspace (discard (make making))
      (fun final => Effect workspace step final.models) := by
  apply Leaves.before_readOnly _ (fun _ => Update.readOnly_pure _)
  apply Leaves.after_get
  apply Leaves.before_readOnly (leaves_onHeap _)
  intro number
  exact Update.readOnly_get.bind (fun _ => Update.readOnly_pure _)

private theorem leaves_edit (name : String) (given : Expression.Edit α) :
    Leaves workspace (discard (edit name given))
      (fun final => Effect workspace step final.models) := by
  apply Leaves.before_readOnly _ (fun _ => Update.readOnly_pure _)
  apply Leaves.after_get
  split
  · apply Leaves.before_readOnly (leaves_onHeap _)
    intro _
    exact Update.readOnly_get.bind (fun _ => Update.readOnly_pure _)
  · exact Effect.aside rfl

/-- A change of a model is all that becomes of the models. -/
private theorem leaves_of_meets {reference : ModelRef} {change : Model.Change α}
    (meets : step.Meets workspace reference change) :
    Leaves workspace step.apply
      (fun final => Effect workspace step final.models) := by
  have put : ∀ model, (workspace.model reference).after change = model →
      Effect workspace step (workspace.putModel model).models := by
    rintro model rfl
    apply Effect.changed meets
    rw [← Model.reference_after (workspace.model reference) change]
    rfl
  unfold Leaves
  rw [meets.apply_eq]
  cases outcome : change.apply (workspace.model reference) with
  | ok result model =>
      rw [change_of_ok outcome]
      exact put model (Model.after_of_ok outcome)
  | error error model =>
      rw [change_of_error outcome]
      exact put model (Model.after_of_error outcome)

private theorem leaves_apply (workspace : Workspace α) (step : Step α) :
    Leaves workspace step.apply
      (fun final => Effect workspace step final.models) := by
  cases step with
  | createModel options =>
      apply Leaves.before_readOnly _ (fun _ => Update.readOnly_pure _)
      apply Leaves.after_get
      apply Leaves.after_check (.aside rfl)
      intro record _
      apply Leaves.after_check (.aside rfl)
      intro read _
      exact Effect.created read.name read.direction rfl
  | make making => exact leaves_make making
  | edit name given => exact leaves_edit name given
  | assign name value => exact Effect.aside rfl
  | makeVariable reference index => exact Effect.aside rfl
  | makeConstraint reference index => exact Effect.aside rfl
  | addVariable reference options =>
      cases read : workspace.asRecord VariableOptions.names options with
      | ok record => exact leaves_of_meets (.addVariable read)
      | error error =>
          apply Leaves.before_readOnly _ (fun _ => Update.readOnly_pure _)
          exact .of_error (Update.bind_of_refused read) (.aside rfl)
  | addConstraint reference body name =>
      cases read : workspace.constraintBody reference body
          (.foreignExpression body.owner) with
      | ok expression => exact leaves_of_meets (.addConstraint read)
      | error error =>
          apply Leaves.before_readOnly _ (fun _ => Update.readOnly_pure _)
          exact .of_error (Update.bind_of_refused read) (.aside rfl)
  | setExpression constraint body =>
      cases read : workspace.constraintBody constraint.model body
          (.foreignReplacement constraint.index) with
      | ok expression => exact leaves_of_meets (.setExpression read)
      | error error => exact .of_error (Update.bind_of_refused read) (.aside rfl)
  | setRightHandSide constraint value =>
      cases read : workspace.amount value with
      | ok number => exact leaves_of_meets (.setRightHandSide read)
      | error error => exact .of_error (Update.bind_of_refused read) (.aside rfl)
  | loadSolution reference data =>
      cases read : workspace.asRecord SolutionData.names data with
      | ok record => exact leaves_of_meets (.loadSolution read)
      | error error => exact .of_error (Update.bind_of_refused read) (.aside rfl)
  | change reference given => exact leaves_of_meets .change

/-- Every step has one of these effects, whether it succeeds or is refused. -/
theorem effect_after (workspace : Workspace α) (step : Step α) :
    Effect workspace step (workspace.after step).models := by
  have leaves := leaves_apply workspace step
  unfold Leaves at leaves
  unfold after
  cases outcome : step.apply workspace with
  | ok result changed =>
      rw [outcome] at leaves
      exact leaves
  | error error changed =>
      rw [outcome] at leaves
      exact leaves

end Effects

section Models

variable {workspace : Workspace α} {step : Step α}

/-- Every model is at the position that its reference states. -/
def Placed (workspace : Workspace α) : Prop :=
  ∀ position (model : Model α), workspace.models[position]? = some model →
    model.reference.id = position

theorem model_of_found {reference : ModelRef} {model : Model α}
    (found : workspace.models[reference.id]? = some model) :
    workspace.model reference = model := by
  rw [Workspace.model, found, Option.getD_some]

/-- A reference to no model of the workspace is one to a new model. -/
theorem model_cases (workspace : Workspace α) (reference : ModelRef) :
    workspace.model reference ∈ workspace.models ∨
      workspace.model reference = Model.new reference .minimize := by
  cases found : workspace.models[reference.id]? with
  | none =>
      right
      rw [Workspace.model, found, Option.getD_none]
  | some model =>
      left
      rw [model_of_found found]
      exact List.mem_of_getElem? found

theorem placed_empty : ({} : Workspace α).Placed := by
  intro position model found
  cases found

/-- A model that is changed stays where it is, and a new one comes last. -/
theorem Placed.after (placed : workspace.Placed) (step : Step α) :
    (workspace.after step).Placed := by
  intro position model found
  cases effect_after workspace step with
  | aside same =>
      rw [same] at found
      exact placed position model found
  | created name direction added =>
      rw [added, List.getElem?_append] at found
      split at found
      · exact placed position model found
      · rw [List.getElem?_singleton] at found
        split at found
        · cases found
          simp only [Model.new]
          omega
        · cases found
  | changed meets written =>
      rw [written, List.getElem?_set] at found
      split at found
      · rename_i here
        split at found
        · cases found
          rw [Model.reference_after, here]
        · cases found
      · exact placed position model found

theorem placed_run (placed : workspace.Placed) (steps : List (Step α)) :
    (workspace.run steps).Placed := by
  induction steps generalizing workspace with
  | nil => exact placed
  | cons step rest induction => exact induction (placed.after step)

theorem placed_reached (steps : List (Step α)) :
    (reached steps).Placed :=
  placed_run placed_empty steps

theorem Placed.id_model (placed : workspace.Placed) (reference : ModelRef) :
    (workspace.model reference).reference.id = reference.id := by
  cases found : workspace.models[reference.id]? with
  | none =>
      rw [Workspace.model, found, Option.getD_none]
      rfl
  | some model =>
      rw [model_of_found found]
      exact placed _ model found

theorem model_congr {reference named : ModelRef} (same : named.id = reference.id)
    (stored : reference.id < workspace.models.length) :
    workspace.model named = workspace.model reference := by
  rw [Workspace.model, Workspace.model, same, List.getElem?_eq_getElem stored,
    Option.getD_some, Option.getD_some]

/-- A step leaves a model as it is, or changes it as it changes models. -/
theorem Placed.model_after (placed : workspace.Placed) (step : Step α)
    {reference : ModelRef} (stored : reference.id < workspace.models.length) :
    (workspace.after step).model reference = workspace.model reference ∨
      ∃ named change, step.Meets workspace named change ∧
        named.id = reference.id ∧
        (workspace.after step).model reference =
          (workspace.model reference).after change := by
  have found : workspace.models[reference.id]? =
      some (workspace.model reference) := by
    rw [Workspace.model, List.getElem?_eq_getElem stored, Option.getD_some]
  cases effect_after workspace step with
  | aside same =>
      left
      rw [Workspace.model, same, Workspace.model]
  | created name direction added =>
      left
      apply model_of_found
      rw [added, List.getElem?_append_left stored]
      exact found
  | @changed named change meets written =>
      rw [placed.id_model] at written
      by_cases here : named.id = reference.id
      · right
        refine ⟨named, change, meets, here, ?_⟩
        apply model_of_found
        rw [written, here, List.getElem?_set_self stored,
          model_congr here stored]
      · left
        apply model_of_found
        rw [written, List.getElem?_set_ne here]
        exact found

theorem length_le_after (workspace : Workspace α) (step : Step α) :
    workspace.models.length ≤ (workspace.after step).models.length := by
  cases effect_after workspace step with
  | aside same => rw [same]
  | created name direction added =>
      rw [added, List.length_append]
      exact Nat.le_add_right _ _
  | changed meets written => rw [written, List.length_set]

section Success

variable {reference : ModelRef} {change : Model.Change α}
  {changed : Workspace α}

theorem after_of_ok (success : step.apply workspace = .ok () changed) :
    workspace.after step = changed := by
  rw [after, success]

theorem Placed.after_ok (placed : workspace.Placed)
    (stored : reference.id < workspace.models.length)
    (success : step.apply workspace = .ok () changed) :
    changed.Placed ∧ reference.id < changed.models.length := by
  rw [← after_of_ok success]
  exact ⟨placed.after step,
    Nat.lt_of_lt_of_le stored (workspace.length_le_after step)⟩

theorem model_putModel {reference : ModelRef} {model : Model α}
    (here : model.reference.id = reference.id)
    (stored : reference.id < workspace.models.length) :
    (workspace.putModel model).model reference = model := by
  apply model_of_found
  rw [putModel, here, List.getElem?_set_self stored]

theorem Placed.putModel_model (placed : workspace.Placed)
    (stored : reference.id < workspace.models.length) :
    workspace.putModel (workspace.model reference) = workspace := by
  have found : workspace.model reference = workspace.models[reference.id] := by
    rw [Workspace.model, List.getElem?_eq_getElem stored, Option.getD_some]
  rw [putModel, placed.id_model, found, List.set_getElem_self]

theorem Placed.model_of_ok (placed : workspace.Placed)
    (stored : reference.id < workspace.models.length)
    (meets : step.Meets workspace reference change)
    (success : step.apply workspace = .ok () changed) :
    ∃ write, (workspace.model reference).Accepts change write ∧
      changed.model reference = write.onto (workspace.model reference) := by
  rw [meets.apply_eq] at success
  cases outcome : change.apply (workspace.model reference) with
  | error error model =>
      rw [change_of_error outcome] at success
      cases success
  | ok result model =>
      rw [change_of_ok outcome] at success
      cases success
      obtain ⟨write, accepts, rfl⟩ := Model.apply_eq_ok_iff.mp outcome
      refine ⟨write, accepts, model_putModel ?_ stored⟩
      rw [← Model.after_of_ok outcome, Model.reference_after]
      exact placed.id_model reference

end Success

section Writes

/-- A step has something written to a model. -/
def Step.Writes (workspace : Workspace α) (reference : ModelRef)
    (step : Step α) (write : Model.Write α) : Prop :=
  ∃ named change, step.Meets workspace named change ∧
    named.id = reference.id ∧ (workspace.model reference).Accepts change write

/-- At every point of a run, something holds of the workspace and the step that
comes next. -/
def Throughout (workspace : Workspace α) (steps : List (Step α))
    (event : Workspace α → Step α → Prop) : Prop :=
  ∀ earlier step later, steps = earlier ++ step :: later →
    event (workspace.run earlier) step

theorem Throughout.tail {event : Workspace α → Step α → Prop}
    {later : List (Step α)}
    (throughout : workspace.Throughout (step :: later) event) :
    (workspace.after step).Throughout later event := by
  intro earlier next rest split
  subst split
  exact throughout (step :: earlier) next rest rfl

theorem Throughout.cons {event : Workspace α → Step α → Prop}
    {later : List (Step α)} (first : event workspace step)
    (rest : (workspace.after step).Throughout later event) :
    workspace.Throughout (step :: later) event := by
  intro earlier next remaining split
  cases earlier with
  | nil =>
      cases split
      exact first
  | cons head earlier =>
      cases split
      exact rest earlier next remaining rfl

/-- What holds of a model, of what is written to it in the course of some steps
and of what remains without its solution holds after these steps. -/
theorem Placed.holds_run {reference : ModelRef} {later : List (Step α)}
    (placed : workspace.Placed) (property : Model α → Prop)
    (stored : reference.id < workspace.models.length)
    (holds : property (workspace.model reference))
    (written : workspace.Throughout later (fun workspace step =>
      ∀ write, step.Writes workspace reference write →
        property (workspace.model reference) →
        property (write.onto (workspace.model reference))))
    (dropped : ∀ model, property model → property model.withoutValues) :
    property ((workspace.run later).model reference) := by
  induction later generalizing workspace with
  | nil => exact holds
  | cons step rest induction =>
      have still := Nat.lt_of_lt_of_le stored (workspace.length_le_after step)
      refine induction (placed.after step) still ?_ written.tail
      rcases placed.model_after step stored with
        same | ⟨named, change, meets, here, changed⟩
      · rw [same]
        exact holds
      · rw [changed]
        apply Model.holds_after holds _ (dropped _ holds)
        intro write accepts
        exact written [] step rest rfl write
          ⟨named, change, meets, here, accepts⟩ holds

/-- What has a handle keeps it whatever the later steps are. -/
theorem Placed.hasHandle_run {reference : ModelRef} {index : Index}
    (placed : workspace.Placed) (stored : reference.id < workspace.models.length)
    (has : (workspace.model reference).HasHandle index) (later : List (Step α)) :
    ((workspace.run later).model reference).HasHandle index :=
  placed.holds_run (fun model => model.HasHandle index) stored has
    (fun _ _ _ _ write _ has => has.onto write) (fun _ has => has)

end Writes

section Invariants

variable {property : Model α → Prop}

/-- What holds of a model before a step holds of what the step makes of it. -/
def Step.Keeps (workspace : Workspace α) (property : Model α → Prop)
    (step : Step α) : Prop :=
  ∀ reference change, step.Meets workspace reference change →
    property (workspace.model reference) →
    property ((workspace.model reference).after change)

/-- What holds of all models that are there, and of new ones, holds of the model of
any reference. -/
theorem forall_model
    (created : ∀ reference direction, property (Model.new reference direction))
    (holds : ∀ model ∈ workspace.models, property model) (reference : ModelRef) :
    property (workspace.model reference) := by
  rcases model_cases workspace reference with stored | new
  · exact holds _ stored
  · rw [new]
    exact created reference .minimize

theorem forall_model_after
    (created : ∀ reference direction, property (Model.new reference direction))
    (holds : ∀ model ∈ workspace.models, property model)
    (kept : step.Keeps workspace property) :
    ∀ model ∈ (workspace.after step).models, property model := by
  intro model membership
  cases effect_after workspace step with
  | aside same =>
      rw [same] at membership
      exact holds model membership
  | created name direction added =>
      rw [added] at membership
      rcases List.mem_append.mp membership with old | new
      · exact holds model old
      · cases List.mem_singleton.mp new
        exact created _ direction
  | @changed reference change meets written =>
      rw [written] at membership
      rcases List.mem_or_eq_of_mem_set membership with old | rfl
      · exact holds model old
      · exact kept reference change meets (forall_model created holds reference)

theorem forall_model_run {steps : List (Step α)}
    (created : ∀ reference direction, property (Model.new reference direction))
    (holds : ∀ model ∈ workspace.models, property model)
    (kept : workspace.Throughout steps (fun workspace step =>
      step.Keeps workspace property)) :
    ∀ model ∈ (workspace.run steps).models, property model := by
  induction steps generalizing workspace with
  | nil => exact holds
  | cons step rest induction =>
      exact induction (forall_model_after created holds (kept [] step rest rfl))
        kept.tail

/-- What holds of new models, and is kept throughout a run, holds of all models at
its end. -/
theorem forall_model_reached {steps : List (Step α)}
    (created : ∀ reference direction, property (Model.new reference direction))
    (kept : ({} : Workspace α).Throughout steps (fun workspace step =>
      step.Keeps workspace property)) (reference : ModelRef) :
    property ((reached steps).model reference) := by
  apply forall_model created
  apply forall_model_run created _ kept
  intro model membership
  cases membership

end Invariants

theorem Step.Meets.asks {reference : ModelRef} {change : Model.Change α}
    (meets : step.Meets workspace reference change) (asking : step.asks = true) :
    change.asks = true := by
  cases meets with
  | change => exact asking
  | _ => rfl

/-- A model that a run of its own makes of a new one, of changes that ask if need
be. -/
def FromNew (asking : Prop) (model : Model α) : Prop :=
  ∃ reference direction changes,
    model = Model.reached reference direction changes ∧
      (asking → ∀ change ∈ changes, change.asks = true)

theorem fromNew_new {asking : Prop} (reference : ModelRef)
    (direction : Direction) :
    FromNew asking (Model.new reference direction : Model α) := by
  refine ⟨reference, direction, [], rfl, ?_⟩
  intro _ change listed
  cases listed

/-- At all times, every model is what a run of its own makes of a new model. -/
theorem fromNew_reached (steps : List (Step α)) (reference : ModelRef) :
    FromNew (∀ step ∈ steps, step.asks = true)
      ((reached steps).model reference) := by
  apply forall_model_reached fromNew_new
  rintro earlier step later split named change meets
    ⟨start, direction, changes, same, asks⟩
  refine ⟨start, direction, changes ++ [change], ?_, ?_⟩
  · rw [Model.reached_concat, same]
  · intro asking other listed
    have membership : step ∈ steps := by simp [split]
    rcases List.mem_append.mp listed with before | last
    · exact asks asking other before
    · cases List.mem_singleton.mp last
      exact meets.asks (asking step membership)

theorem Step.Meets.registers {reference : ModelRef} {change : Model.Change α}
    (meets : step.Meets workspace reference change)
    (keeping : step.registers = false) : change.registers = false := by
  cases meets with
  | change => exact keeping
  | _ => rfl

/-- At all times, the handles of a model are those of the first places of its
tables. -/
theorem filed_reached (steps : List (Step α)) (reference : ModelRef) :
    ((reached steps).model reference).Filed := by
  apply forall_model_reached Model.filed_new
  intro earlier step later split named change _ filed
  exact filed.after change

/-- If nothing is entered directly, there is a handle for all that is in the tables. -/
theorem paired_reached {steps : List (Step α)}
    (keeping : ∀ step ∈ steps, step.registers = false) (reference : ModelRef) :
    ((reached steps).model reference).Paired := by
  apply forall_model_reached Model.paired_new
  intro earlier step later split named change meets paired
  have membership : step ∈ steps := by simp [split]
  exact paired.after (meets.registers (keeping step membership))

end Models

section Bounds

/-- Two bounds are numbers, and the first one does not exceed the second one. -/
def InOrder (bounds : Float × Float) : Prop :=
  Scalar.isUndefined bounds.1 = false ∧ Scalar.isUndefined bounds.2 = false ∧
    bounds.1 ≤ bounds.2

theorem inOrder_of_le {lower upper : Float} (ordered : lower ≤ upper) :
    InOrder (lower, upper) := by
  obtain ⟨lowerDefined, upperDefined⟩ := Double.defined_of_le ordered
  exact ⟨Double.isUndefined_eq_false_iff.mpr lowerDefined,
    Double.isUndefined_eq_false_iff.mpr upperDefined, ordered⟩

theorem inOrder_bounds {model : Model Float} (ordered : model.Ordered)
    (index : Index) : InOrder (model.bounds index) := by
  cases found : index.get? model.variableTable with
  | none =>
      rw [Model.bounds, found]
      exact inOrder_of_le (by decide)
  | some data =>
      rw [Model.bounds, found]
      exact inOrder_of_le (ordered data (Index.mem_of_get? found))

/-- Whatever a caller does who does not write to the tables without asking, and
whether it succeeds or not: the bounds of a variable never are undefined, and the
lower one never exceeds the upper one. -/
theorem bounds_inOrder {steps : List (Step Float)}
    (asking : ∀ step ∈ steps, step.asks = true) (reference : ModelRef)
    (index : Index) : InOrder (((reached steps).model reference).bounds index) := by
  obtain ⟨start, direction, changes, same, asks⟩ :=
    fromNew_reached steps reference
  rw [same]
  exact inOrder_bounds (Model.ordered_reached (asks asking)) index

private def setting (given : Model.Change Float) : Step Float :=
  .change ⟨0, "m"⟩ given

/-- A variable becomes binary and continuous again, and three bounds are refused. -/
private def swinging : List (Step Float) :=
  [.createModel (.record [("name", .text "m")] 0),
    .addVariable ⟨0, "m"⟩
      (.record [("lb", .number (-3)), ("ub", .number 7)] 0),
    setting (.setKind (.place 0) (.text "B")),
    setting (.setLower (.place 0) (.number 2)),
    setting (.setKind (.place 0) (.text "C")),
    setting (.setUpper (.place 0) (.number (-1))),
    setting (.setLower (.place 0) (.number (0 / 0)))]

theorem bounds_inOrder_swinging :
    ((reached swinging).model ⟨0, "m"⟩).columnCount = 1 ∧
      InOrder (((reached swinging).model ⟨0, "m"⟩).bounds (.place 0)) := by
  have asking : ∀ step ∈ swinging, step.asks = true := by
    simp [swinging, setting, Step.asks, Model.Change.asks]
  exact ⟨by decide +kernel, bounds_inOrder asking _ _⟩

end Bounds

end LinearProgram.Workspace
