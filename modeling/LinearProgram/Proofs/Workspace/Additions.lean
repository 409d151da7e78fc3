import LinearProgram.Proofs.Model.Additions
import LinearProgram.Proofs.Model.Objective
import LinearProgram.Proofs.Workspace.Runs

/-!
# Variables are added exactly if they are admissible

A caller gives options as a record, as another object in its place, or not at all.
Whatever happened to the workspace before, the options and the models of the
constraints alone decide whether a variable is added.  For what the new variable
costs it matters that no earlier change has put anything into the objective where
the variable goes, so changes of the objective may only speak of variables that are
in the table at that time.
-/

namespace LinearProgram.Workspace

section Reading

/-- A caller gives options of the right types: none at all, or those of an object,
whose attributes stand in for members. -/
inductive Offers (workspace : Workspace Float) : Value Float → Offer → Prop
  | nothing : Offers workspace .missing {}
  | object {given : Value Float} {offer : Offer} (object : given.optionType = "object")
      (tag : Nat) (attributes : ∀ name ∈ VariableOptions.names,
        workspace.attributeOf given name = .ok (offer.member tag name)) :
      Offers workspace given offer

variable {workspace : Workspace Float} {given : Value Float} {offer : Offer}

theorem offers_record (workspace : Workspace Float) (offer : Offer) (tag label : Nat) :
    workspace.Offers (offer.record tag label) offer :=
  .object rfl tag (fun _ declared =>
    congrArg Except.ok (offer.member_record tag label declared))

theorem attributeOf_of_plain (plain : given.isObject = false) (name : String) :
    workspace.attributeOf given name = .ok (given.member name) := by
  cases given with
  | model | handle | expression | constraint => cases plain
  | _ => rfl

theorem Offers.exists_record (offers : workspace.Offers given offer) :
    ∃ options, workspace.asRecord VariableOptions.names given = .ok options ∧
      (options.orElse .noOptions).States offer := by
  cases offers with
  | nothing => exact ⟨.missing, rfl, Offer.states_noOptions⟩
  | object object tag attributes =>
      cases library : given.isObject with
      | false =>
          refine ⟨given, ?_, ?_⟩
          · rw [asRecord, library]
            rfl
          · rw [Value.orElse_of_object object]
            refine ⟨object, tag, ?_⟩
            intro name declared
            have stated := attributes name declared
            rw [attributeOf_of_plain library] at stated
            exact Except.ok.inj stated
      | true =>
          have read : VariableOptions.names.mapM (fun name =>
              (workspace.attributeOf given name).map (fun member => (name, member))) =
                .ok (VariableOptions.names.map (fun name =>
                  (name, offer.member tag name))) := by
            apply Check.mapM_eq_ok
            intro name declared
            rw [attributes name declared]
            rfl
          refine ⟨offer.record tag 0, ?_, offer.states_record tag 0⟩
          rw [asRecord, if_pos library, read]
          rfl

end Reading

section Objectives

/-- A step puts only variables into an objective that are in the table. -/
def Step.ObjectiveInRange (workspace : Workspace Float) (step : Step Float) : Prop :=
  ∀ reference change, step.Meets workspace reference change →
    change.ObjectiveInRange (workspace.model reference)

/-- Nothing but cells of variables in the table is in the objective of any model. -/
theorem objectiveCells_reached {steps : List (Step Float)}
    (inRange : ({} : Workspace Float).Throughout steps (fun workspace step =>
      step.ObjectiveInRange workspace)) (reference : ModelRef) :
    ((reached steps).model reference).objective.Over
      ((reached steps).model reference).columnCount := by
  refine @forall_model_reached _ _ (fun model => model.objective.Over model.columnCount)
    steps ?_ ?_ reference
  · intro start direction
    exact Row.over_iff.mpr (Row.within_empty 0 _)
  · intro earlier step later split named change meets spans
    exact Model.objectiveCells_after spans (inRange earlier step later split named change meets)

end Objectives

section Law

variable {workspace : Workspace Float} {reference : ModelRef} {given : Value Float}
  {offer : Offer}

/-- What becomes of an offer to add a variable. -/
structure AdditionLaw (workspace : Workspace Float) (reference : ModelRef)
    (given : Value Float) (offer : Offer) : Prop where
  /-- The options and the models of the constraints decide. -/
  succeeds_iff : (∃ handle changed,
      addVariable reference given workspace = .ok handle changed) ↔
    offer.Admissible ∧ (workspace.model reference).OwnsEntries offer.entries
  added : ∀ handle changed, addVariable reference given workspace = .ok handle changed →
    (workspace.model reference).Adds (changed.model reference) offer handle
  /-- A refusal changes nothing, and is for the options if anything is wrong with
  them. -/
  refused : ∀ error changed,
    addVariable reference given workspace = .error error changed →
      changed = workspace ∧ (error.kind = .invalidOptions ↔ ¬offer.Admissible) ∧
        (error.kind = .modelMismatch ↔ offer.Admissible)

theorem additionLaw_of_ok {handle : Variable} {changed : Workspace Float}
    (outcome : addVariable reference given workspace = .ok handle changed)
    (admissible : offer.Admissible)
    (owned : (workspace.model reference).OwnsEntries offer.entries)
    (adds : (workspace.model reference).Adds (changed.model reference) offer handle) :
    workspace.AdditionLaw reference given offer where
  succeeds_iff := ⟨fun _ => ⟨admissible, owned⟩, fun _ => ⟨handle, changed, outcome⟩⟩
  added := by
    intro other final success
    rw [outcome] at success
    cases success
    exact adds
  refused := by
    intro error final failure
    rw [outcome] at failure
    cases failure

theorem additionLaw_of_error {error : Error Float}
    (outcome : addVariable reference given workspace = .error error workspace)
    (unowned : offer.Admissible →
      ¬(workspace.model reference).OwnsEntries offer.entries)
    (invalid : error.kind = .invalidOptions ↔ ¬offer.Admissible)
    (foreign : error.kind = .modelMismatch ↔ offer.Admissible) :
    workspace.AdditionLaw reference given offer where
  succeeds_iff := by
    constructor
    · rintro ⟨handle, changed, success⟩
      rw [outcome] at success
      cases success
    · rintro ⟨admissible, owned⟩
      exact absurd owned (unowned admissible)
  added := by
    intro handle changed success
    rw [outcome] at success
    cases success
  refused := by
    intro other changed failure
    rw [outcome] at failure
    cases failure
    exact ⟨rfl, invalid, foreign⟩

theorem addVariable_eq_change {options : Value Float}
    (read : workspace.asRecord VariableOptions.names given = .ok options) :
    addVariable reference given workspace =
      change reference (Model.addVariable options) workspace :=
  Update.bind_of_check read

/-- Whatever happened before, as long as nothing was entered directly and no objective was
given variables that were not there: a variable is added exactly if its options are
admissible and all constraints of its column belong to the model.  Those of its own that
the column names are in the table. -/
theorem additionLaw_reached {steps : List (Step Float)}
    (keeping : ∀ step ∈ steps, step.registers = false)
    (inRange : ({} : Workspace Float).Throughout steps (fun workspace step =>
      step.ObjectiveInRange workspace))
    (stored : reference.id < (reached steps).models.length)
    (offers : (reached steps).Offers given offer)
    (known : ∀ entry ∈ offer.entries,
      entry.1.owner = .model ((reached steps).model reference).reference →
        ((reached steps).model reference).HasConstraint entry.1) :
    (reached steps).AdditionLaw reference given offer := by
  have paired := paired_reached keeping reference
  have spans := objectiveCells_reached inRange reference
  have placed := placed_reached steps
  obtain ⟨start, direction, changes, same, _⟩ := fromNew_reached steps reference
  have named : ((reached steps).model reference).Named := by
    rw [same]
    exact Model.named_reached start direction changes
  generalize reached steps = workspace at *
  obtain ⟨options, read, states⟩ := offers.exists_record
  have asked := @addVariable_eq_change workspace reference given options read
  have untouched := placed.putModel_model stored
  by_cases admissible : offer.Admissible
  · by_cases owned : (workspace.model reference).OwnsEntries offer.entries
    · have listed : (workspace.model reference).ListsEntries offer.entries :=
        fun entry membership => (known entry membership (owned entry membership)).listed
      obtain ⟨kind, coded, success⟩ :=
        Model.addVariable_of_admissible states admissible listed
      rw [change_of_ok success] at asked
      have here : ((Model.Write.newVariable (offer.accepted kind)
          (some (workspace.model reference).nextHandle)).onto
            (workspace.model reference)).reference.id = reference.id :=
        placed.id_model reference
      apply additionLaw_of_ok asked admissible owned
      rw [model_putModel here stored]
      exact Model.adds_newVariable paired named spans admissible.toValid coded
    · obtain ⟨error, failure, foreign⟩ :=
        Model.addVariable_of_foreign states admissible owned
      rw [change_of_error failure, untouched] at asked
      exact additionLaw_of_error asked (fun _ => owned)
        (by simp [foreign, admissible]) (by simp [foreign, admissible])
  · obtain ⟨error, failure, invalid⟩ := Model.addVariable_of_inadmissible states admissible
    rw [change_of_error failure, untouched] at asked
    exact additionLaw_of_error asked (fun admitted => absurd admitted admissible)
      (by simp [invalid, admissible]) (by simp [invalid, admissible])

end Law

section Offered

private def hiring : ModelRef := ⟨0, "m"⟩

/-- A constraint of a model. -/
private def vacancy (reference : ModelRef) : Participant :=
  Constraint.participant { model := reference, index := .place 0 }

private def atMostTen : Expression Float where
  terms := ⟨[(.place 0, ⟨(hiring.variable (.place 0)).participant, 1⟩)], by simp⟩
  constant := -10
  relation := .atMost

/-- Two models, of which the first one has a variable with a cost and a constraint. -/
private def hired : List (Step Float) :=
  [.createModel (.record [("name", .text "m")] 0),
    .createModel (.record [("name", .text "n")] 0),
    .addVariable hiring .missing,
    .change hiring (.setObjectiveCoefficient (.place 0) (.number 2)),
    .addConstraint hiring (.expression 0 atMostTen) ""]

/-- A binary variable under a name that is taken, which costs next to nothing. -/
private def applying : Offer where
  name := some "var(0)"
  lower := some (-2)
  upper := some 0.5
  objective := some 1e-13
  code := some "B"
  column := some ⟨[(vacancy hiring, 3)], by decide⟩

/-- A binary variable that can not be zero or one, in a constraint of another
model. -/
private def overreaching : Offer where
  lower := some 2
  upper := some 3
  code := some "B"
  column := some ⟨[(vacancy ⟨1, "n"⟩, 3)], by decide⟩

private theorem hired_inRange : ({} : Workspace Float).Throughout hired
    (fun workspace step => step.ObjectiveInRange workspace) := by
  refine .cons ?_ (.cons ?_ (.cons ?_ (.cons ?_ (.cons ?_ ?_))))
  case refine_4 =>
    intro reference change meets
    cases meets
    have one : ((reached (hired.take 3)).model hiring).columnCount = 1 := by decide +kernel
    exact ⟨0, one.symm ▸ Nat.one_pos, rfl⟩
  case refine_6 =>
    intro earlier step later split
    simp at split
  all_goals
    intro reference change meets
    cases meets <;> trivial

private theorem applying_admissible : applying.Admissible where
  lower := by decide +kernel
  upper := by decide +kernel
  ordered := by decide +kernel
  cost := by decide +kernel
  kind := by decide
  meets _ := by decide +kernel

/-- One variable is added, with the bounds that are left to it and at no cost.  The
other one has two faults, and is refused for the bounds. -/
theorem additionLaw_reached_binary :
    (∃ handle changed, addVariable hiring (applying.record 7 8) (reached hired) =
        .ok handle changed ∧
      ((reached hired).model hiring).Adds (changed.model hiring) applying handle ∧
      (changed.model hiring).handle? handle.index = some handle ∧
      (changed.model hiring).bounds handle.index = (0, 0.5) ∧
      (changed.model hiring).objectiveCoefficient handle.index = 0) ∧
    ∃ error, addVariable hiring (overreaching.record 7 8) (reached hired) =
        .error error (reached hired) ∧
      error.kind = .invalidOptions := by
  have stored : hiring.id < (reached hired).models.length := by decide +kernel
  have keeping : ∀ step ∈ hired, step.registers = false := by
    simp [hired, Step.registers, Model.Change.registers]
  constructor
  · have law := additionLaw_reached keeping hired_inRange stored
      (offers_record (reached hired) applying 7 8) (by
        simp only [Model.HasConstraint]
        decide +kernel)
    have owned : ((reached hired).model hiring).OwnsEntries applying.entries := by
      unfold Model.OwnsEntries
      decide +kernel
    obtain ⟨handle, changed, success⟩ := law.succeeds_iff.mpr ⟨applying_admissible, owned⟩
    have adds := law.added handle changed success
    refine ⟨handle, changed, success, adds, adds.last, adds.bounds.trans ?_,
      adds.cost.trans ?_⟩
    · decide +kernel
    · decide +kernel
  · have law := additionLaw_reached keeping hired_inRange stored
      (offers_record (reached hired) overreaching 7 8) (by
        simp only [Model.HasConstraint]
        decide +kernel)
    have inadmissible : ¬overreaching.Admissible := by
      intro admissible
      exact absurd (admissible.meets rfl).1 (by decide +kernel)
    cases outcome : addVariable hiring (overreaching.record 7 8) (reached hired) with
    | ok handle changed =>
        exact absurd (law.succeeds_iff.mp ⟨handle, changed, outcome⟩).1 inadmissible
    | error error changed =>
        obtain ⟨same, invalid, _⟩ := law.refused error changed outcome
        exact ⟨error, congrArg (EStateM.Result.error error) same,
          invalid.mpr inadmissible⟩

end Offered

end LinearProgram.Workspace
