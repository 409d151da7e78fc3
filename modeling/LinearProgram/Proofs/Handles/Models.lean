import LinearProgram.Model.Change
import LinearProgram.Proofs.Handles.Expressions

/-!
# Models and handles

A model files everything under indices, and the handles that it keeps are those
that it makes itself.  So a change whose arguments differ in their handles writes the
very same, or is refused for the same reason.
-/

namespace LinearProgram.Model

variable {α : Type} [Scalar α]

open Update (Alike)

section Entries

theorem insertEntries_kept (index : Index) (entries : List (Participant × α)) :
    insertEntries index (entries.map Column.keptEntry) = insertEntries index entries := by
  exact List.forM_map

theorem forM_requireOwn_kept (entries : List (Participant × α)) :
    (entries.map Column.keptEntry).forM (fun entry => requireOwn (α := α) entry.1) =
      entries.forM (fun entry => requireOwn entry.1) := by
  exact List.forM_map

theorem forM_requireRow_kept (entries : List (Participant × α)) :
    (entries.map Column.keptEntry).forM (fun entry => requireRow (α := α) entry.1) =
      entries.forM (fun entry => requireRow entry.1) := by
  exact List.forM_map

end Entries

section Stores

theorem entries_column_kept (options : VariableOptions α) :
    (options.kept.column.getD Column.empty).entries =
      (options.column.getD Column.empty).entries.map Column.keptEntry := by
  obtain ⟨name, lower, upper, objective, kind, column⟩ := options
  cases column <;> rfl

theorem storeVariable_kept (options : VariableOptions α) :
    storeVariable options.kept = storeVariable options := by
  unfold storeVariable
  simp only [entries_column_kept, forM_requireRow_kept, insertEntries_kept]
  rfl

theorem storeEntries_kept (index : Index) (entries : List (Participant × α)) :
    storeEntries index (entries.map Column.keptEntry) = storeEntries index entries := by
  unfold storeEntries
  simp only [forM_requireRow_kept, insertEntries_kept]

theorem requireOwned_kept (expression : Expression α) (refusal : Owner → Error α) :
    requireOwned expression.kept refusal = requireOwned expression refusal := by
  unfold requireOwned
  rw [Expression.owner?_kept]

theorem storeConstraint_kept (expression : Expression α) (name : String) :
    storeConstraint expression.kept name = storeConstraint expression name := by
  unfold storeConstraint
  rw [Expression.ofExpression_kept, Expression.relation_kept]

theorem storeObjective_kept (expression : Expression α) :
    storeObjective expression.kept = storeObjective expression := by
  unfold storeObjective
  rw [Expression.ofExpression_kept]

theorem storeExpression_kept (index : Index) (expression : Expression α) :
    storeExpression index expression.kept = storeExpression index expression := by
  unfold storeExpression
  rw [Expression.ofExpression_kept, Expression.relation_kept]

theorem addConstraint_kept (expression : Expression α) (name : String) :
    addConstraint expression.kept name = addConstraint expression name := by
  unfold addConstraint
  rw [requireOwned_kept, storeConstraint_kept]
  rfl

theorem setExpression_kept (index : Index) (expression : Expression α) :
    setExpression index expression.kept = setExpression index expression := by
  unfold setExpression
  rw [requireOwned_kept, storeExpression_kept]
  rfl

end Stores

section Options

theorem addVariable_kept (options : Value α) : addVariable options.kept = addVariable options := by
  have given : options.kept.orElse .noOptions = (options.orElse .noOptions).kept :=
    options.orElse_kept .noOptions
  have read : VariableOptions.read.require "variable options" (options.orElse .noOptions).kept =
      (VariableOptions.read.require "variable options" (options.orElse .noOptions)).map
        VariableOptions.kept := by
    rw [Reader.require, Reader.requireFor, VariableOptions.read_kept, Reading.conclude_map]
    rfl
  unfold addVariable
  rw [given, read]
  cases VariableOptions.read.require "variable options" (options.orElse .noOptions) with
  | error reason => rfl
  | ok options =>
      have stored (lower upper : α) : storeVariable (VariableOptions.kept
          { options with lower := lower, upper := upper }) =
            storeVariable { options with lower := lower, upper := upper } := storeVariable_kept _
      funext model
      refine (Update.bind_of_check rfl).trans (Eq.trans ?_ (Update.bind_of_check rfl).symm)
      dsimp only
      rw [entries_column_kept, forM_requireOwn_kept]
      simp only [VariableOptions.kept] at stored ⊢
      simp only [stored]

theorem loadSolution_kept (data : Value α) : loadSolution data.kept = loadSolution data := by
  unfold loadSolution
  rw [SolutionData.blind_read.require]

theorem setDirection_kept (value : Value α) : setDirection value.kept = setDirection value := by
  have blind : Reader.Blind (α := α) Reader.direction := Reader.blind_code _ _
  unfold setDirection
  rw [blind.require]

theorem setLower_kept (index : Index) (value : Value α) :
    setLower index value.kept = setLower index value := by
  have blind : Reader.Blind (α := α) Reader.bound := Reader.blind_number
  unfold setLower
  rw [blind.require]

theorem setUpper_kept (index : Index) (value : Value α) :
    setUpper index value.kept = setUpper index value := by
  have blind : Reader.Blind (α := α) Reader.bound := Reader.blind_number
  unfold setUpper
  rw [blind.require]

theorem setObjectiveCoefficient_kept (index : Index) (value : Value α) :
    setObjectiveCoefficient index value.kept = setObjectiveCoefficient index value := by
  have blind : Reader.Blind (α := α) Reader.objective := Reader.blind_finiteNumber
  unfold setObjectiveCoefficient
  rw [blind.require]

end Options

/-- A change with the kept handles in its arguments.  What is stored in the place of a
kind is no handle. -/
def Change.kept : Change α → Change α
  | addVariable options => addVariable options.kept
  | addConstraint expression name => addConstraint expression.kept name
  | setObjective value => setObjective value.kept
  | setDirection value => setDirection value.kept
  | setLower index value => setLower index value.kept
  | setUpper index value => setUpper index value.kept
  | setKind index value => setKind index value.kept
  | setObjectiveCoefficient index value => setObjectiveCoefficient index value.kept
  | setColumn index column => setColumn index column.kept
  | setExpression index expression => setExpression index expression.kept
  | storeVariable options => storeVariable options.kept
  | storeConstraint expression name => storeConstraint expression.kept name
  | storeObjective expression => storeObjective expression.kept
  | storeExpression index expression => storeExpression index expression.kept
  | loadSolution value => loadSolution value.kept
  | addConflict first second => addConflict first.kept second.kept
  | other => other

/-- Updates of a model that do the same. -/
abbrev UpdatesAlike {β : Type} (first second : ModelUpdate α β) : Prop := Alike id id first second

theorem setKind_alike (index : Index) (value : Value α) :
    UpdatesAlike (setKind index value) (setKind index value.kept) := by
  refine .bind_check value.variableKind_alike (fun kind _ same => ?_)
  cases same
  exact .refl _

theorem setObjective_alike (value : Value α) :
    UpdatesAlike (setObjective value) (setObjective value.kept) := by
  have summed : Check.Alike Expression.kept (Expression.sum [value])
      (Expression.sum [value.kept]) := by
    apply Expression.sum_alike
    simp
  refine .bind_check summed (fun expression other same => ?_)
  rw [← requireOwned_kept, ← storeObjective_kept, same, requireOwned_kept, storeObjective_kept]
  exact .refl _

theorem setColumn_alike (index : Index) (column : Value α) :
    UpdatesAlike (setColumn index column) (setColumn index column.kept) := by
  refine .bind_check (Column.entriesOf_alike column) (fun entries others same => ?_)
  rw [← storeEntries_kept, same, storeEntries_kept]
  exact .refl _

/-- Changes that differ in the handles of their arguments do the same. -/
theorem Change.alike (given : Change α) : UpdatesAlike given.apply given.kept.apply := by
  cases given with
  | addVariable options =>
      exact .of_eq (congrArg (fun update => discard update) (addVariable_kept options).symm)
  | addConstraint expression name =>
      exact .of_eq (congrArg (fun update => discard update)
        (addConstraint_kept expression name).symm)
  | setObjective value => exact setObjective_alike value
  | setDirection value => exact .of_eq (setDirection_kept value).symm
  | setLower index value => exact .of_eq (setLower_kept index value).symm
  | setUpper index value => exact .of_eq (setUpper_kept index value).symm
  | setKind index value => exact setKind_alike index value
  | setObjectiveCoefficient index value =>
      exact .of_eq (setObjectiveCoefficient_kept index value).symm
  | setColumn index column => exact setColumn_alike index column
  | setExpression index expression => exact .of_eq (setExpression_kept index expression).symm
  | storeVariable options => exact .of_eq (storeVariable_kept options).symm
  | storeConstraint expression name => exact .of_eq (storeConstraint_kept expression name).symm
  | storeObjective expression => exact .of_eq (storeObjective_kept expression).symm
  | storeExpression index expression => exact .of_eq (storeExpression_kept index expression).symm
  | loadSolution value => exact .of_eq (loadSolution_kept value).symm
  | addConflict first second => exact .refl _
  | _ => exact .refl _

end LinearProgram.Model
