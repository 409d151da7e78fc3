import LinearProgram.Model.Change
import LinearProgram.Proofs.Outcome

/-!
# What changes write

A change first checks its arguments against the model, and then writes, which can
not fail.  Here is said once for every change under which conditions it is
accepted and what it then writes.  A change that is refused leaves the model as
it was, apart from a solution that does not fit.
-/

namespace LinearProgram.Model

variable {α β : Type} [Scalar α]

open Update (ReadOnly Settles)

/-- Whether a change loads a solution. -/
def Change.loads : Change α → Bool
  | loadSolution _ => true
  | _ => false

/-- Whether a change comes with its checks.  Those that write to the tables
without asking do not. -/
def Change.asks : Change α → Bool
  | storeVariable _ | storeConstraint _ _ | storeObjective _
  | storeDirection _ | storeLower _ _ | storeUpper _ _ | storeKind _ _
  | storeObjectiveCoefficient _ _ | storeExpression _ _ => false
  | _ => true

/-- What a change writes once its checks have passed. -/
inductive Write (α : Type) [Scalar α] where
  /-- A variable, and the handle that is kept for it, if any is. -/
  | newVariable (options : VariableOptions α) (handle : Option Variable)
  | newConstraint (expression : Expression α) (name : String) (handle : Option Constraint)
  | objective (expression : Expression α)
  | direction (direction : Direction)
  | name (index : Index) (name : String)
  | lower (index : Index) (lower : α)
  | upper (index : Index) (upper : α)
  | kind (index : Index) (kind : StoredKind α)
  | objectiveCoefficient (index : Index) (coefficient : α)
  | entries (index : Index) (entries : List (Participant × α))
  | rightHandSide (index : Index) (value : α)
  | expression (index : Index) (expression : Expression α)
  | noSolution
  | solution (status : Status) (data : Option (SolutionData α))
  | conflict (first second : Assignment)

section Writing

/-- The model without its solution. -/
def withoutSolution (model : Model α) : Model α :=
  { model with solution := none, status := .loaded }

/-- The model with something changed that is known about a variable. -/
def withVariable (model : Model α) (index : Index)
    (change : VariableRecord α → VariableRecord α) : Model α :=
  { model with variableTable := index.modify change model.variableTable }

/-- The model with something changed that is known about a constraint. -/
def withConstraint (model : Model α) (index : Index)
    (change : ConstraintRecord α → ConstraintRecord α) : Model α :=
  { model with constraintTable := index.modify change model.constraintTable }

/-- The model with the entries of a column added to the cells of a variable. -/
def withEntries (model : Model α) (index : Index)
    (entries : List (Participant × α)) : Model α :=
  { model with
    constraintTable := entries.foldl (fun table entry =>
      entry.1.index.modify
        (fun data => { data with row := data.row.insert index entry.2 }) table)
      model.constraintTable }

/-- What holds of a model, and is kept by every entry, holds after a whole column
was written. -/
theorem withEntries_keeps {property : Model α → Prop} {index : Index}
    (kept : ∀ (model : Model α) (entry : Participant × α), property model →
      property (model.withConstraint entry.1.index (fun data =>
        { data with row := data.row.insert index entry.2 })))
    {model : Model α} (holds : property model)
    (entries : List (Participant × α)) :
    property (model.withEntries index entries) := by
  induction entries generalizing model with
  | nil => exact holds
  | cons entry rest induction => exact induction (kept model entry holds)

/-- The model with one more variable, which does not have any cells yet. -/
def withNewVariable (model : Model α) (options : VariableOptions α) : Model α :=
  let position := model.columnCount
  let name := model.variableNames.unique (options.name.getD "")
    (variableFallback position)
  { model with
    variableTable := model.variableTable ++
      [⟨name, options.lower, options.upper, .listed options.kind⟩]
    variableNames := model.variableNames.insert name position
    objective := model.objective.insert (.place position) options.objective }

/-- The model with one more constraint. -/
def withNewConstraint (model : Model α) (expression : Expression α)
    (name : String) : Model α :=
  let position := model.rowCount
  let name := model.constraintNames.unique name (constraintFallback position)
  { model with
    constraintTable := model.constraintTable ++
      [⟨name, Row.ofExpression expression, expression.relation⟩]
    constraintNames := model.constraintNames.insert name position }

/-- The model with one more handle that it keeps, if one is given. -/
def withHandle (model : Model α) (handle : Option Variable) : Model α :=
  { model with variableHandles := model.variableHandles ++ handle.toList }

def withConstraintHandle (model : Model α) (handle : Option Constraint) : Model α :=
  { model with constraintHandles := model.constraintHandles ++ handle.toList }

@[simp]
theorem withHandle_none (model : Model α) : model.withHandle none = model := by
  simp [withHandle]

@[simp]
theorem withConstraintHandle_none (model : Model α) :
    model.withConstraintHandle none = model := by
  simp [withConstraintHandle]

/-- The model with another name for the variable at a position. -/
def withName (model : Model α) (position : Nat) (name : String) : Model α :=
  let others : NameRegistry :=
    model.variableNames.erase (model.variableName (.place position))
  let name := others.unique name (variableFallback position)
  { model with
    variableTable :=
      model.variableTable.modify position (fun data => { data with name })
    variableNames := others.insert name position }

/-- The model without any cells of a variable in the constraints. -/
def withoutCells (model : Model α) (index : Index) : Model α :=
  { model with
    constraintTable := model.constraintTable.map
      (fun data => { data with row := data.row.remove index }) }

/-- The entries of the column that options give. -/
def entriesOf (options : VariableOptions α) : List (Participant × α) :=
  (options.column.getD Column.empty).entries

/-- The model after a write. -/
def Write.onto (model : Model α) : Write α → Model α
  | newVariable options handle =>
      ((model.withNewVariable options).withEntries (.place model.columnCount)
        (entriesOf options)).withoutSolution.withHandle handle
  | newConstraint given wanted handle =>
      (model.withNewConstraint given wanted).withoutSolution.withConstraintHandle handle
  | objective given =>
      withoutSolution { model with objective := Row.ofExpression given }
  | direction given => withoutSolution { model with direction := given }
  | name index wanted =>
      match model.variablePosition? index with
      | some position => model.withName position wanted
      | none => model
  | lower index bound =>
      (model.withVariable index
        (fun data => { data with lower := bound })).withoutSolution
  | upper index bound =>
      (model.withVariable index
        (fun data => { data with upper := bound })).withoutSolution
  | kind index given =>
      (model.withVariable index (fun data =>
        let (least, greatest) := clipped given data.lower data.upper
        { data with
          kind := given
          lower := least
          upper := greatest })).withoutSolution
  | objectiveCoefficient index coefficient =>
      withoutSolution { model with
        objective := (model.objective.remove index).insert index coefficient }
  | entries index given =>
      ((model.withoutCells index).withEntries index given).withoutSolution
  | rightHandSide index value =>
      (model.withConstraint index (fun data =>
        { data with row := { data.row with constant := -value } })).withoutSolution
  | expression index given =>
      (model.withConstraint index (fun data =>
        { data with
          row := Row.ofExpression given
          relation := given.relation })).withoutSolution
  | noSolution => model.withoutSolution
  | solution status data => { model with status, solution := data }
  | conflict first second =>
      { model with conflicts := model.conflicts.insert (first.pairKey α second) }

end Writing

section Accepting

/-- All terms of an expression, if it has any, belong to the model. -/
def Owns (model : Model α) (expression : Expression α) : Prop :=
  ∀ owner, expression.owner? = some owner → owner = .model model.reference

/-- The table has a variable at an index. -/
def ListsVariable (model : Model α) (index : Index) : Prop :=
  (index.get? model.variableTable).isSome = true

/-- The table has a constraint at an index. -/
def ListsConstraint (model : Model α) (index : Index) : Prop :=
  (index.get? model.constraintTable).isSome = true

instance decidableListsVariable (model : Model α) (index : Index) :
    Decidable (model.ListsVariable index) :=
  inferInstanceAs (Decidable (_ = true))

instance decidableListsConstraint (model : Model α) (index : Index) :
    Decidable (model.ListsConstraint index) :=
  inferInstanceAs (Decidable (_ = true))

/-- An index has a place in the table exactly if the table has a variable there. -/
theorem isSome_variablePosition? {model : Model α} {index : Index} :
    (model.variablePosition? index).isSome = true ↔ model.ListsVariable index := by
  unfold ListsVariable Index.get? variablePosition?
  cases index.position? with
  | none => rfl
  | some position => simp [Option.filter_some]

/-- All entries of a column belong to constraints of the model. -/
def OwnsEntries (model : Model α) (entries : List (Participant × α)) : Prop :=
  ∀ entry ∈ entries, entry.1.owner = .model model.reference

/-- All entries of a column belong to constraints of the model that are in its table. -/
def ListsEntries (model : Model α) (entries : List (Participant × α)) : Prop :=
  ∀ entry ∈ entries, entry.1.owner = .model model.reference ∧
    model.ListsConstraint entry.1.index

theorem ListsEntries.owned {model : Model α} {entries : List (Participant × α)}
    (listed : model.ListsEntries entries) : model.OwnsEntries entries :=
  fun entry membership => (listed entry membership).1

/-- The checks of a change pass, and this is what it writes then. -/
inductive Accepts (model : Model α) : Change α → Write α → Prop
  | addVariable {given : Value α} {options : VariableOptions α} {lower upper : α}
      (accepted : VariableOptions.read.require "variable options"
        (given.orElse .noOptions) = .ok options)
      (clips : clipped (.listed options.kind) options.lower options.upper =
        (lower, upper))
      (ordered : requireBinaryBounds options.kind lower upper
        "variable options" = .ok ())
      (listed : model.ListsEntries (entriesOf options)) :
      Accepts model (.addVariable given)
        (.newVariable { options with lower, upper } (some model.nextHandle))
  | addConstraint {expression : Expression α} {name : String}
      (related : expression.relation ≠ .affine)
      (owned : model.Owns expression) :
      Accepts model (.addConstraint expression name)
        (.newConstraint expression name (some model.nextConstraintHandle))
  | setObjective {given : Value α} {expression : Expression α}
      (summed : Expression.sum [given] = .ok expression)
      (owned : model.Owns expression) :
      Accepts model (.setObjective given) (.objective expression)
  | setDirection {given : Value α} {direction : Direction}
      (accepted : Reader.direction.require "objective sense" given =
        .ok direction) :
      Accepts model (.setDirection given) (.direction direction)
  | setName {index : Index} {name : String} (listed : model.ListsVariable index) :
      Accepts model (.setName index name) (.name index name)
  | setLower {index : Index} {given : Value α} {lower : α}
      (accepted : Reader.bound.require "lower bound" given = .ok lower)
      (listed : model.ListsVariable index)
      (ordered : checkBounds lower (model.bounds index).2 "lower bound" =
        .ok ()) :
      Accepts model (.setLower index given) (.lower index lower)
  | setUpper {index : Index} {given : Value α} {upper : α}
      (accepted : Reader.bound.require "upper bound" given = .ok upper)
      (listed : model.ListsVariable index)
      (ordered : checkBounds (model.bounds index).1 upper "upper bound" =
        .ok ()) :
      Accepts model (.setUpper index given) (.upper index upper)
  | setKind {index : Index} {given : Value α} {kind : VariableKind}
      {lower upper : α} (accepted : given.variableKind = .ok kind)
      (listed : model.ListsVariable index)
      (clips : clipped (.listed kind) (model.bounds index).1
        (model.bounds index).2 = (lower, upper))
      (ordered : requireBinaryBounds kind lower upper "variable type" =
        .ok ()) :
      Accepts model (.setKind index given) (.kind index (.listed kind))
  | setObjectiveCoefficient {index : Index} {given : Value α} {coefficient : α}
      (accepted : Reader.objective.require "objective coefficient" given =
        .ok coefficient) :
      Accepts model (.setObjectiveCoefficient index given)
        (.objectiveCoefficient index coefficient)
  | setColumn {index : Index} {given : Value α}
      {entries : List (Participant × α)}
      (accepted : Column.entriesOf given = .ok entries)
      (listed : model.ListsEntries entries) :
      Accepts model (.setColumn index given) (.entries index entries)
  | setRightHandSide {index : Index} {value : α}
      (listed : model.ListsConstraint index) :
      Accepts model (.setRightHandSide index value) (.rightHandSide index value)
  | setExpression {index : Index} {expression : Expression α}
      (related : expression.relation ≠ .affine)
      (owned : model.Owns expression) (listed : model.ListsConstraint index) :
      Accepts model (.setExpression index expression)
        (.expression index expression)
  | storeVariable {options : VariableOptions α}
      (listed : model.ListsEntries (entriesOf options)) :
      Accepts model (.storeVariable options) (.newVariable options none)
  | storeConstraint {expression : Expression α} {name : String} :
      Accepts model (.storeConstraint expression name)
        (.newConstraint expression name none)
  | storeObjective {expression : Expression α} :
      Accepts model (.storeObjective expression) (.objective expression)
  | storeDirection {direction : Direction} :
      Accepts model (.storeDirection direction) (.direction direction)
  | storeLower {index : Index} {lower : α} (listed : model.ListsVariable index) :
      Accepts model (.storeLower index lower) (.lower index lower)
  | storeUpper {index : Index} {upper : α} (listed : model.ListsVariable index) :
      Accepts model (.storeUpper index upper) (.upper index upper)
  | storeKind {index : Index} {given : Value α} (listed : model.ListsVariable index) :
      Accepts model (.storeKind index given) (.kind index (.ofValue given))
  | storeObjectiveCoefficient {index : Index} {coefficient : α} :
      Accepts model (.storeObjectiveCoefficient index coefficient)
        (.objectiveCoefficient index coefficient)
  | storeExpression {index : Index} {expression : Expression α}
      (listed : model.ListsConstraint index) :
      Accepts model (.storeExpression index expression)
        (.expression index expression)
  | clearSolution : Accepts model .clearSolution .noSolution
  | loadStatus {given : Value α} {data : SolutionData α}
      (accepted : SolutionData.read.require "solution" given = .ok data)
      (without : data.status.hasSolution = false) :
      Accepts model (.loadSolution given) (.solution data.status none)
  | loadSolution {given : Value α} {data : SolutionData α}
      (accepted : SolutionData.read.require "solution" given = .ok data)
      (withValues : data.status.hasSolution = true)
      (clean : model.solutionIssues data = []) :
      Accepts model (.loadSolution given) (.solution data.status (some data))
  | addConflict {first second : Literal}
      (firstOwned : first.participant.owner = .model model.reference)
      (secondOwned : second.participant.owner = .model model.reference) :
      Accepts model (.addConflict first second)
        (.conflict first.assignment second.assignment)

end Accepting

/-- Refuse an owner other than the model. -/
private def requireOwner (owner : Owner) (refusal : Error α) :
    ModelUpdate α Unit := do
  if owner ≠ .model (← get).reference then throw refusal

section Passing

variable {model : Model α} {change : Change α} {write : Write α}

private theorem requireOwner_eq {owner : Owner} (refusal : Error α)
    (own : owner = .model model.reference) :
    requireOwner owner refusal model = .ok () model := by
  change (if owner ≠ .model model.reference then throw refusal else pure ⟨⟩ :
    ModelUpdate α Unit) model = _
  rw [if_neg (not_not_intro own)]
  rfl

private theorem requireOwned_eq {expression : Expression α}
    (refusal : Owner → Error α) (owned : model.Owns expression) :
    requireOwned expression refusal model = .ok () model := by
  unfold requireOwned
  cases found : expression.owner? with
  | none => rfl
  | some owner => exact requireOwner_eq _ (owned owner found)

private theorem requireVariable_eq {index : Index}
    (listed : model.ListsVariable index) :
    (requireVariable index : ModelUpdate α Unit) model = .ok () model := by
  obtain ⟨data, found⟩ := Index.exists_entry (α := α) listed
  have looked : (get : ModelUpdate α (Model α)) model = .ok model model := rfl
  exact (Update.bind_of_ok looked).trans (Update.bind_of_check found)

private theorem requireConstraint_eq {index : Index}
    (listed : model.ListsConstraint index) :
    (requireConstraint index : ModelUpdate α Unit) model = .ok () model := by
  obtain ⟨data, found⟩ := Index.exists_entry (α := α) listed
  have looked : (get : ModelUpdate α (Model α)) model = .ok model model := rfl
  exact (Update.bind_of_ok looked).trans (Update.bind_of_check found)

private theorem requireBounds_eq {index : Index}
    (listed : model.ListsVariable index) :
    model.requireBounds index = .ok (model.bounds index) := by
  obtain ⟨data, found⟩ := Option.isSome_iff_exists.mp listed
  rw [requireBounds, Index.entry, Model.bounds, found]
  rfl

private theorem requireEntries_eq {entries : List (Participant × α)}
    (owned : model.OwnsEntries entries) :
    (entries.forM (fun entry => requireOwn entry.1) : ModelUpdate α Unit) model =
      .ok () model :=
  Update.forM_of_ok (fun entry membership => requireOwner_eq _ (owned entry membership))

private theorem requireRows_eq {entries : List (Participant × α)}
    (listed : model.ListsEntries entries) :
    (entries.forM (fun entry => requireRow entry.1) : ModelUpdate α Unit) model =
      .ok () model := by
  apply Update.forM_of_ok
  intro entry membership
  obtain ⟨own, present⟩ := listed entry membership
  have passed : (requireOwn entry.1 : ModelUpdate α Unit) model = .ok () model :=
    requireOwner_eq _ own
  exact (Update.bind_of_ok passed).trans (requireConstraint_eq present)

private theorem requireOwn_of_foreign {constraint : Participant}
    (foreign : constraint.owner ≠ .model model.reference) :
    (requireOwn constraint : ModelUpdate α Unit) model =
      .error (.foreignConstraint constraint.index) model := by
  change (if constraint.owner ≠ .model model.reference then
    throw (.foreignConstraint constraint.index) else pure ⟨⟩ :
      ModelUpdate α Unit) model = _
  rw [if_pos foreign]
  rfl

/-- Where own constraints pass, the first constraint of another model is refused. -/
private theorem forM_of_foreign {require : Participant → ModelUpdate α Unit}
    {entries : List (Participant × α)}
    (passes : ∀ entry ∈ entries, entry.1.owner = .model model.reference →
      require entry.1 model = .ok () model)
    (refuses : ∀ entry ∈ entries, entry.1.owner ≠ .model model.reference →
      require entry.1 model = .error (.foreignConstraint entry.1.index) model)
    (foreign : ∃ entry ∈ entries, entry.1.owner ≠ .model model.reference) :
    ∃ entry ∈ entries, entry.1.owner ≠ .model model.reference ∧
      (entries.forM (fun entry => require entry.1) : ModelUpdate α Unit) model =
        .error (.foreignConstraint entry.1.index) model := by
  induction entries with
  | nil => simp at foreign
  | cons first rest induction =>
      by_cases own : first.1.owner = .model model.reference
      · have passed := passes first List.mem_cons_self own
        have later : ∃ entry ∈ rest, entry.1.owner ≠ .model model.reference := by
          obtain ⟨entry, membership, apart⟩ := foreign
          rcases List.mem_cons.mp membership with rfl | later
          · exact absurd own apart
          · exact ⟨entry, later, apart⟩
        obtain ⟨entry, membership, apart, refused⟩ := induction
          (fun entry listed => passes entry (List.mem_cons_of_mem _ listed))
          (fun entry listed => refuses entry (List.mem_cons_of_mem _ listed)) later
        exact ⟨entry, List.mem_cons_of_mem _ membership, apart,
          (Update.bind_of_ok passed).trans refused⟩
      · have refused := refuses first List.mem_cons_self own
        exact ⟨first, List.mem_cons_self, own, Update.bind_of_error refused⟩

/-- The first constraint of another model is refused, before anything is written. -/
theorem requireEntries_of_foreign {entries : List (Participant × α)}
    (foreign : ∃ entry ∈ entries, entry.1.owner ≠ .model model.reference) :
    ∃ entry ∈ entries, entry.1.owner ≠ .model model.reference ∧
      (entries.forM (fun entry => requireOwn entry.1) : ModelUpdate α Unit) model =
        .error (.foreignConstraint entry.1.index) model :=
  forM_of_foreign (fun _ _ own => requireOwner_eq _ own)
    (fun _ _ apart => requireOwn_of_foreign apart) foreign

/-- So it is where the table is asked, too, as long as it has all own constraints. -/
theorem requireRows_of_foreign {entries : List (Participant × α)}
    (listed : ∀ entry ∈ entries, entry.1.owner = .model model.reference →
      model.ListsConstraint entry.1.index)
    (foreign : ∃ entry ∈ entries, entry.1.owner ≠ .model model.reference) :
    ∃ entry ∈ entries, entry.1.owner ≠ .model model.reference ∧
      (entries.forM (fun entry => requireRow entry.1) : ModelUpdate α Unit) model =
        .error (.foreignConstraint entry.1.index) model := by
  apply forM_of_foreign _ _ foreign
  · intro entry membership own
    have passed : (requireOwn entry.1 : ModelUpdate α Unit) model = .ok () model :=
      requireOwner_eq _ own
    exact (Update.bind_of_ok passed).trans
      (requireConstraint_eq (listed entry membership own))
  · intro entry _ apart
    exact Update.bind_of_error (requireOwn_of_foreign apart)

private theorem requireRelated_eq {expression : Expression α}
    (related : expression.relation ≠ .affine) :
    requireRelated expression = .ok () :=
  if_neg related

private theorem insertEntries_eq (model : Model α) (index : Index)
    (entries : List (Participant × α)) :
    insertEntries index entries model =
      .ok () (model.withEntries index entries) := by
  induction entries generalizing model with
  | nil => rfl
  | cons entry rest induction => exact induction _

private theorem insertEntries_invalidate_eq (model : Model α) (index : Index)
    (entries : List (Participant × α)) :
    (insertEntries index entries >>= fun _ => invalidate) model =
      .ok () (model.withEntries index entries).withoutSolution :=
  Update.bind_of_ok (insertEntries_eq model index entries)

private theorem storeVariable_eq (options : VariableOptions α)
    (listed : model.ListsEntries (entriesOf options)) :
    storeVariable options model =
      .ok () ((model.withNewVariable options).withEntries (.place model.columnCount)
        (entriesOf options)).withoutSolution := by
  refine (Update.bind_of_ok (requireRows_eq listed)).trans ?_
  exact insertEntries_invalidate_eq (model.withNewVariable options) _ _

private theorem storeEntries_eq (index : Index)
    {entries : List (Participant × α)} (listed : model.ListsEntries entries) :
    storeEntries index entries model =
      .ok () ((Write.entries index entries).onto model) := by
  refine (Update.bind_of_ok (requireRows_eq listed)).trans ?_
  exact insertEntries_invalidate_eq (model.withoutCells index) _ _

private theorem keepSolution_of_clean {data : SolutionData α}
    (clean : model.solutionIssues data = []) :
    keepSolution data model =
      .ok () { model with solution := some data } := by
  change (if (model.solutionIssues data).isEmpty = true then _ else _ :
    ModelUpdate α Unit) model = _
  rw [clean]
  rfl

/-- A new variable is known by the next handle, which the model keeps. -/
theorem addVariable_eq {given : Value α} {options : VariableOptions α}
    {lower upper : α}
    (accepted : VariableOptions.read.require "variable options"
      (given.orElse .noOptions) = .ok options)
    (clips : clipped (.listed options.kind) options.lower options.upper =
      (lower, upper))
    (ordered : requireBinaryBounds options.kind lower upper
      "variable options" = .ok ())
    (listed : model.ListsEntries (entriesOf options)) :
    addVariable given model = .ok model.nextHandle
      ((Write.newVariable { options with lower, upper }
        (some model.nextHandle)).onto model) := by
  refine (Update.bind_of_check accepted).trans ?_
  rw [clips]
  refine (Update.bind_of_check ordered).trans ?_
  refine (Update.bind_of_ok (requireEntries_eq listed.owned)).trans ?_
  exact Update.bind_of_ok (storeVariable_eq { options with lower, upper } listed)

/-- If its checks pass, a change is accepted, and writes what it is to write. -/
theorem apply_of_accepts (accepts : model.Accepts change write) :
    change.apply model = .ok () (write.onto model) := by
  cases accepts with
  | addVariable accepted clips ordered listed =>
      exact Update.bind_of_ok (addVariable_eq accepted clips ordered listed)
  | @addConstraint expression name related owned =>
      have added : addConstraint expression name model = .ok
          model.nextConstraintHandle
          ((Write.newConstraint expression name
            (some model.nextConstraintHandle)).onto model) := by
        refine (Update.bind_of_check (requireRelated_eq related)).trans ?_
        exact Update.bind_of_ok (requireOwned_eq _ owned)
      exact Update.bind_of_ok added
  | setObjective summed owned =>
      refine (Update.bind_of_check summed).trans ?_
      exact Update.bind_of_ok (requireOwned_eq _ owned)
  | setDirection accepted => exact Update.bind_of_check accepted
  | @setName index name listed =>
      obtain ⟨position, found⟩ :=
        Option.isSome_iff_exists.mp (isSome_variablePosition?.mpr listed)
      have looked : (get : ModelUpdate α (Model α)) model = .ok model model := rfl
      refine (Update.bind_of_ok looked).trans ?_
      simp only [Write.onto, found]
      rfl
  | setLower accepted listed ordered =>
      refine (Update.bind_of_check accepted).trans ?_
      refine (Update.bind_of_check (requireBounds_eq listed)).trans ?_
      refine (Update.bind_of_check ordered).trans ?_
      exact Update.bind_of_ok (requireVariable_eq listed)
  | setUpper accepted listed ordered =>
      refine (Update.bind_of_check accepted).trans ?_
      refine (Update.bind_of_check (requireBounds_eq listed)).trans ?_
      refine (Update.bind_of_check ordered).trans ?_
      exact Update.bind_of_ok (requireVariable_eq listed)
  | setKind accepted listed clips ordered =>
      refine (Update.bind_of_check accepted).trans ?_
      refine (Update.bind_of_check (requireBounds_eq listed)).trans ?_
      obtain ⟨rfl, rfl⟩ := Prod.mk.inj clips
      refine (Update.bind_of_check ordered).trans ?_
      exact Update.bind_of_ok (requireVariable_eq listed)
  | setObjectiveCoefficient accepted => exact Update.bind_of_check accepted
  | setColumn accepted listed =>
      refine (Update.bind_of_check accepted).trans ?_
      exact storeEntries_eq _ listed
  | setRightHandSide listed | storeExpression listed =>
      exact Update.bind_of_ok (requireConstraint_eq listed)
  | setExpression related owned listed =>
      refine (Update.bind_of_check (requireRelated_eq related)).trans ?_
      refine (Update.bind_of_ok (requireOwned_eq _ owned)).trans ?_
      exact Update.bind_of_ok (requireConstraint_eq listed)
  | storeVariable listed =>
      rw [Write.onto, withHandle_none]
      exact storeVariable_eq _ listed
  | storeConstraint =>
      rw [Write.onto, withConstraintHandle_none]
      rfl
  | storeLower listed | storeUpper listed | storeKind listed =>
      exact Update.bind_of_ok (requireVariable_eq listed)
  | loadStatus accepted without =>
      refine (Update.bind_of_check accepted).trans ?_
      change (if _ = true then _ else _ : ModelUpdate α Unit) _ = _
      rw [if_neg (by simp [without])]
      rfl
  | loadSolution accepted withValues clean =>
      refine (Update.bind_of_check accepted).trans ?_
      change (if _ = true then _ else _ : ModelUpdate α Unit) _ = _
      rw [if_pos withValues]
      exact keepSolution_of_clean clean
  | addConflict firstOwned secondOwned =>
      refine (Update.bind_of_ok (requireOwner_eq _ firstOwned)).trans ?_
      exact Update.bind_of_ok (requireOwner_eq _ secondOwned)
  | _ => rfl

end Passing

section Refusing

variable {model : Model α} {change : Change α} {property : Model α → Prop}

private theorem readOnly_requireOwner (owner : Owner) (refusal : Error α) :
    ReadOnly (requireOwner owner refusal) := by
  apply Update.readOnly_get.bind
  intro model
  split
  · exact Update.readOnly_throw _
  · exact Update.readOnly_pure _

private theorem readOnly_requireVariable (index : Index) :
    ReadOnly (requireVariable index : ModelUpdate α Unit) := by
  apply Update.readOnly_get.bind
  intro model
  exact (Update.readOnly_check _).bind (fun _ => Update.readOnly_pure _)

private theorem readOnly_requireConstraint (index : Index) :
    ReadOnly (requireConstraint index : ModelUpdate α Unit) := by
  apply Update.readOnly_get.bind
  intro model
  exact (Update.readOnly_check _).bind (fun _ => Update.readOnly_pure _)

private theorem variable_of_ok {index : Index} {result : Unit} {final : Model α}
    (success : requireVariable index model = .ok result final) :
    model.ListsVariable index := by
  obtain ⟨value, middle, looked, rest⟩ := Update.ok_of_bind success
  cases looked
  obtain ⟨data, found, _⟩ := Update.ok_of_check_bind rest
  exact Index.isSome_of_entry found

private theorem constraint_of_ok {index : Index} {result : Unit} {final : Model α}
    (success : requireConstraint index model = .ok result final) :
    model.ListsConstraint index := by
  obtain ⟨value, middle, looked, rest⟩ := Update.ok_of_bind success
  cases looked
  obtain ⟨data, found, _⟩ := Update.ok_of_check_bind rest
  exact Index.isSome_of_entry found

private theorem bounds_of_ok {index : Index} {bounds : α × α}
    (success : model.requireBounds index = .ok bounds) :
    model.ListsVariable index ∧ bounds = model.bounds index := by
  have listed : model.ListsVariable index := by
    cases found : (index.entry model.variableTable : Except (Error α) _) with
    | ok data => exact Index.isSome_of_entry found
    | error reason =>
        rw [requireBounds, found] at success
        cases success
  rw [requireBounds_eq listed] at success
  exact ⟨listed, (Except.ok.inj success).symm⟩

private theorem settles_after_variable {index : Index}
    {next : Unit → ModelUpdate α β}
    (later : model.ListsVariable index → Settles model (next ⟨⟩) property) :
    Settles model (requireVariable index >>= next) property := by
  apply Settles.after_readOnly (readOnly_requireVariable index)
  intro result passed
  exact later (variable_of_ok passed)

private theorem settles_after_constraint {index : Index}
    {next : Unit → ModelUpdate α β}
    (later : model.ListsConstraint index → Settles model (next ⟨⟩) property) :
    Settles model (requireConstraint index >>= next) property := by
  apply Settles.after_readOnly (readOnly_requireConstraint index)
  intro result passed
  exact later (constraint_of_ok passed)

private theorem owner_of_ok {owner : Owner} {refusal : Error α} {result : Unit}
    {final : Model α}
    (success : requireOwner owner refusal model = .ok result final) :
    owner = .model model.reference := by
  change (if owner ≠ .model model.reference then throw refusal else pure ⟨⟩ :
    ModelUpdate α Unit) model = _ at success
  split at success
  · cases success
  · rename_i own
    exact Decidable.not_not.mp own

/-- What follows the refusal of another owner is about one that is the model. -/
private theorem settles_after_owner {owner : Owner} {refusal : Error α}
    {next : Unit → ModelUpdate α β}
    (later : owner = .model model.reference →
      Settles model (next ⟨⟩) property) :
    Settles model (requireOwner owner refusal >>= next) property := by
  apply Settles.after_readOnly (readOnly_requireOwner owner refusal)
  intro result passed
  exact later (owner_of_ok passed)

private theorem settles_after_owned {expression : Expression α}
    {refusal : Owner → Error α} {next : Unit → ModelUpdate α β}
    (later : model.Owns expression → Settles model (next ⟨⟩) property) :
    Settles model (requireOwned expression refusal >>= next) property := by
  unfold requireOwned
  cases found : expression.owner? with
  | none =>
      apply later
      intro owner stated
      rw [found] at stated
      cases stated
  | some owner =>
      refine settles_after_owner (fun own => later ?_)
      intro other stated
      rw [found] at stated
      cases stated
      exact own

private theorem settles_after_entries {entries : List (Participant × α)}
    {next : Unit → ModelUpdate α β}
    (later : model.OwnsEntries entries → Settles model (next ⟨⟩) property) :
    Settles model (entries.forM (fun entry => requireOwn entry.1) >>= next)
      property := by
  have readOnly : ∀ entry : Participant × α,
      ReadOnly (requireOwn entry.1 : ModelUpdate α Unit) :=
    fun _ => readOnly_requireOwner _ _
  apply Settles.after_readOnly (Update.readOnly_forM readOnly)
  intro result passed
  apply later
  intro entry membership
  exact owner_of_ok (Update.ok_of_forM readOnly passed entry membership)

private theorem settles_after_rows {entries : List (Participant × α)}
    {next : Unit → ModelUpdate α β}
    (later : model.ListsEntries entries → Settles model (next ⟨⟩) property) :
    Settles model (entries.forM (fun entry => requireRow entry.1) >>= next)
      property := by
  have readOnly : ∀ entry : Participant × α,
      ReadOnly (requireRow entry.1 : ModelUpdate α Unit) :=
    fun _ => (readOnly_requireOwner _ _).bind (fun _ => readOnly_requireConstraint _)
  apply Settles.after_readOnly (Update.readOnly_forM readOnly)
  intro result passed
  apply later
  intro entry membership
  have row := Update.ok_of_forM readOnly passed entry membership
  obtain ⟨_, own, listed⟩ :=
    Update.ReadOnly.ok_of_bind (readOnly_requireOwner _ _) row
  exact ⟨owner_of_ok own, constraint_of_ok listed⟩

private theorem relation_of_ok {expression : Expression α} {result : Unit}
    (success : requireRelated expression = .ok result) :
    expression.relation ≠ .affine := by
  intro affine
  rw [requireRelated, if_pos affine] at success
  cases success

/-- There is nothing to rename where the table has nothing. -/
private theorem setName_of_unlisted {index : Index} {name : String}
    (unlisted : ¬model.ListsVariable index) :
    setName index name model = .error .noEntry model := by
  have nowhere : model.variablePosition? index = none := by
    rw [← Option.not_isSome_iff_eq_none, isSome_variablePosition?]
    exact unlisted
  have looked : (get : ModelUpdate α (Model α)) model = .ok model model := rfl
  refine (Update.bind_of_ok looked).trans ?_
  rw [nowhere]
  rfl

private theorem settles_storeVariable (options : VariableOptions α) :
    Settles model (storeVariable options)
      (fun _ => model.ListsEntries (entriesOf options)) := by
  apply settles_after_rows
  intro listed
  exact .of_ok (insertEntries_invalidate_eq (model.withNewVariable options) _ _)
    listed

private theorem settles_storeEntries (index : Index)
    (entries : List (Participant × α)) :
    Settles model (storeEntries index entries)
      (fun _ => model.ListsEntries entries) := by
  apply settles_after_rows
  intro listed
  exact .of_ok (insertEntries_invalidate_eq (model.withoutCells index) _ _) listed

/-- Keeping a handle does not fail. -/
private theorem total_keepHandle (handle : Variable) :
    Update.Total (keepHandle handle >>= fun _ => pure handle : ModelUpdate α Variable) := by
  intro state error final failure
  cases failure

/-- Every change but the loading of a solution is refused as a whole, or its
checks pass. -/
private theorem settles_apply (model : Model α) {change : Change α}
    (notLoading : change.loads = false) :
    Settles model change.apply (fun _ => ∃ write, model.Accepts change write) := by
  cases change with
  | addVariable given =>
      refine Settles.before_total ?_ (fun _ => Update.total_pure _)
      apply Settles.after_check
      intro options accepted
      apply Settles.after_check
      intro _ ordered
      apply settles_after_entries
      intro _
      apply Settles.after_get
      refine Settles.before_total ?_ (fun _ => total_keepHandle _)
      apply (settles_storeVariable _).mono
      intro _ listed
      exact ⟨_, .addVariable accepted rfl ordered listed⟩
  | addConstraint expression name =>
      refine Settles.before_total ?_ (fun _ => Update.total_pure _)
      apply Settles.after_check
      intro _ related
      apply settles_after_owned
      intro owned
      exact .of_ok rfl ⟨_, .addConstraint (relation_of_ok related) owned⟩
  | setObjective given =>
      apply Settles.after_check
      intro expression summed
      apply settles_after_owned
      intro owned
      exact .of_ok rfl ⟨_, .setObjective summed owned⟩
  | setDirection given =>
      apply Settles.after_check
      intro direction accepted
      exact .of_ok rfl ⟨_, .setDirection accepted⟩
  | setName index name =>
      by_cases listed : model.ListsVariable index
      · exact .of_ok (apply_of_accepts (.setName listed)) ⟨_, .setName listed⟩
      · exact .of_error (setName_of_unlisted listed)
  | setLower index given =>
      apply Settles.after_check
      intro lower accepted
      apply Settles.after_get
      apply Settles.after_check
      intro bounds known
      obtain ⟨listed, rfl⟩ := bounds_of_ok known
      apply Settles.after_check
      intro _ ordered
      have accepts : model.Accepts (.setLower index given) _ :=
        .setLower accepted listed ordered
      exact .of_ok (Update.bind_of_ok (requireVariable_eq listed)) ⟨_, accepts⟩
  | setUpper index given =>
      apply Settles.after_check
      intro upper accepted
      apply Settles.after_get
      apply Settles.after_check
      intro bounds known
      obtain ⟨listed, rfl⟩ := bounds_of_ok known
      apply Settles.after_check
      intro _ ordered
      have accepts : model.Accepts (.setUpper index given) _ :=
        .setUpper accepted listed ordered
      exact .of_ok (Update.bind_of_ok (requireVariable_eq listed)) ⟨_, accepts⟩
  | setKind index given =>
      apply Settles.after_check
      intro kind accepted
      apply Settles.after_get
      apply Settles.after_check
      intro bounds known
      obtain ⟨listed, rfl⟩ := bounds_of_ok known
      apply Settles.after_check
      intro _ ordered
      have accepts : model.Accepts (.setKind index given) _ :=
        .setKind accepted listed rfl ordered
      exact .of_ok (Update.bind_of_ok (requireVariable_eq listed)) ⟨_, accepts⟩
  | setObjectiveCoefficient index given =>
      apply Settles.after_check
      intro coefficient accepted
      exact .of_ok rfl ⟨_, .setObjectiveCoefficient accepted⟩
  | setColumn index given =>
      apply Settles.after_check
      intro entries accepted
      apply (settles_storeEntries index entries).mono
      intro _ listed
      exact ⟨_, .setColumn accepted listed⟩
  | setRightHandSide index value =>
      apply settles_after_constraint
      intro listed
      exact .of_ok rfl ⟨_, .setRightHandSide listed⟩
  | setExpression index expression =>
      apply Settles.after_check
      intro _ related
      apply settles_after_owned
      intro owned
      apply settles_after_constraint
      intro listed
      exact .of_ok rfl ⟨_, .setExpression (relation_of_ok related) owned listed⟩
  | storeVariable options =>
      apply (settles_storeVariable options).mono
      intro _ listed
      exact ⟨_, .storeVariable listed⟩
  | storeConstraint expression name => exact .of_ok rfl ⟨_, .storeConstraint⟩
  | storeObjective expression => exact .of_ok rfl ⟨_, .storeObjective⟩
  | storeDirection direction => exact .of_ok rfl ⟨_, .storeDirection⟩
  | storeLower index lower =>
      apply settles_after_variable
      intro listed
      exact .of_ok rfl ⟨_, .storeLower listed⟩
  | storeUpper index upper =>
      apply settles_after_variable
      intro listed
      exact .of_ok rfl ⟨_, .storeUpper listed⟩
  | storeKind index given =>
      apply settles_after_variable
      intro listed
      exact .of_ok rfl ⟨_, .storeKind listed⟩
  | storeObjectiveCoefficient index coefficient =>
      exact .of_ok rfl ⟨_, .storeObjectiveCoefficient⟩
  | storeExpression index expression =>
      apply settles_after_constraint
      intro listed
      exact .of_ok rfl ⟨_, .storeExpression listed⟩
  | loadSolution given => cases notLoading
  | clearSolution => exact .of_ok rfl ⟨_, .clearSolution⟩
  | addConflict first second =>
      apply settles_after_owner
      intro firstOwned
      apply settles_after_owner
      intro secondOwned
      exact .of_ok rfl ⟨_, .addConflict firstOwned secondOwned⟩

/-- The model after a solution that does not fit: the one before is gone. -/
def withoutValues (model : Model α) : Model α :=
  { model with solution := none, status := .error }

/-- The change loads a solution that can be read, but does not fit for these
reasons. -/
inductive Misloads (model : Model α) : Change α → List Issue → Prop
  | loadSolution {given : Value α} {data : SolutionData α}
      (accepted : SolutionData.read.require "solution" given = .ok data)
      (withValues : data.status.hasSolution = true)
      (issues : model.solutionIssues data ≠ []) :
      Misloads model (.loadSolution given) (model.solutionIssues data)

private theorem keepSolution_of_issues {data : SolutionData α}
    (issues : model.solutionIssues data ≠ []) :
    keepSolution data model =
      .error (.invalidOptions (.text "solution") (model.solutionIssues data))
        { model with status := .error } := by
  change (if (model.solutionIssues data).isEmpty = true then _ else _ :
    ModelUpdate α Unit) model = _
  rw [if_neg (by simpa using issues)]
  rfl

/-- A solution that does not fit takes the one before with it. -/
theorem apply_of_misloads {issues : List Issue}
    (misloads : model.Misloads change issues) :
    change.apply model =
      .error (.invalidOptions (.text "solution") issues) model.withoutValues := by
  cases misloads with
  | loadSolution accepted withValues issues =>
      refine (Update.bind_of_check accepted).trans ?_
      change (if _ = true then _ else _ : ModelUpdate α Unit) _ = _
      rw [if_pos withValues]
      exact keepSolution_of_issues issues

private theorem loadSolution_cases (model : Model α) (given : Value α) :
    (∃ error, loadSolution given model = .error error model) ∨
      (∃ write, model.Accepts (.loadSolution given) write) ∨
      ∃ issues, model.Misloads (.loadSolution given) issues := by
  cases accepted : SolutionData.read.require "solution" given with
  | error error =>
      left
      unfold loadSolution
      rw [accepted]
      exact ⟨error, rfl⟩
  | ok data =>
      right
      cases withValues : data.status.hasSolution with
      | false => exact .inl ⟨_, .loadStatus accepted withValues⟩
      | true =>
          by_cases clean : model.solutionIssues data = []
          · exact .inl ⟨_, .loadSolution accepted withValues clean⟩
          · exact .inr ⟨_, .loadSolution accepted withValues clean⟩

/-- A change is refused as a whole, or it is accepted and writes what it is to
write, or it loads a solution that does not fit. -/
theorem apply_cases (model : Model α) (change : Change α) :
    (∃ error, change.apply model = .error error model) ∨
      (∃ write, model.Accepts change write ∧
        change.apply model = .ok () (write.onto model)) ∨
      ∃ issues, model.Misloads change issues := by
  cases loading : change.loads with
  | true =>
      cases change with
      | loadSolution given =>
          rcases loadSolution_cases model given with
            refused | ⟨write, accepts⟩ | misloads
          · exact .inl refused
          · exact .inr (.inl ⟨write, accepts, apply_of_accepts accepts⟩)
          · exact .inr (.inr misloads)
      | _ => cases loading
  | false =>
      have settles := settles_apply model loading
      cases outcome : change.apply model with
      | error error final =>
          rw [settles.atomic error final outcome]
          exact .inl ⟨error, rfl⟩
      | ok result final =>
          obtain ⟨write, accepts⟩ := settles.holds result final outcome
          rw [← outcome]
          exact .inr (.inl ⟨write, accepts, apply_of_accepts accepts⟩)

/-- A change succeeds exactly if its checks pass, and leaves what it is to write. -/
theorem apply_eq_ok_iff {changed : Model α} :
    change.apply model = .ok () changed ↔
      ∃ write, model.Accepts change write ∧ write.onto model = changed := by
  constructor
  · intro success
    rcases apply_cases model change with
      ⟨error, failure⟩ | ⟨write, accepts, written⟩ | ⟨issues, misloads⟩
    · rw [failure] at success
      cases success
    · rw [written] at success
      cases success
      exact ⟨write, accepts, rfl⟩
    · rw [apply_of_misloads misloads] at success
      cases success
  · rintro ⟨write, accepts, rfl⟩
    exact apply_of_accepts accepts

end Refusing

end LinearProgram.Model
