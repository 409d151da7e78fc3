import LinearProgram.Proofs.Double.Product
import LinearProgram.Proofs.Model.Readable
import LinearProgram.Proofs.Model.Untouched
import LinearProgram.Proofs.Workspace.Runs

/-!
# Stored expressions

A model keeps an expression as a row.  What it keeps is read back as the same
terms in the same order, with the same constant, for as long as nothing is
written to that row: neither other steps nor changes of the expression itself
show in it.
-/

namespace LinearProgram

/-- An expression alone as a sum: only the sign of a zero constant may change. -/
theorem Expression.contents_sum_single {admitted : Variable → Prop} {number : Nat}
    {given total : Expression Float} (sound : given.Sound admitted)
    (success : sum [.expression number given] = .ok total) :
    total.contents = { given.contents with constant := 0 + given.constant } := by
  have added : addExpression given 1 zero = .ok () total := by
    have plus : (zero : Expression Float).plus (.expression number given) =
        .ok total := by
      simpa [sum] using success
    obtain ⟨factor, accepted, added⟩ :=
      Update.ok_of_check_bind (ok_of_after plus)
    cases accepted
    exact added
  have large : ∀ cell ∈ given.contents.cells.toList,
      Scalar.nearZero cell.2 = false := by
    intro cell membership
    obtain ⟨entry, present, rfl⟩ := List.mem_map.mp membership
    exact sound.terms.large entry present
  have empty : (zero : Expression Float).contents = { constant := 0 } := rfl
  rw [contents_addExpression sound.terms.filed added, empty,
    Row.insertScaled_neutral 0 Double.mul_one large, Double.mul_one]
  rfl

namespace Workspace

variable {workspace : Workspace Float} {reference : ModelRef} {row : Nat}
  {given : Expression Float}

/-- The step stores an expression as the constraint at a position: as a new one
that comes last, or in the place of one that is there. -/
inductive Stores (workspace : Workspace Float) (reference : ModelRef)
    (row : Nat) (given : Expression Float) : Step Float → Prop
  | added {number : Nat} {name : String}
      (last : row = (workspace.model reference).rowCount) :
      Stores workspace reference row given
        (.addConstraint reference (.expression number given) name)
  | replaced {constraint : Constraint} {number : Nat}
      (owner : constraint.model = reference)
      (place : constraint.index.position? = some row)
      (inside : row < (workspace.model reference).rowCount) :
      Stores workspace reference row given
        (.setExpression constraint (.expression number given))

/-- The constraint at a position is read as an expression: with its terms in
their order, its constant and its relation. -/
def ConstraintReads (model : Model Float) (row : Nat)
    (given : Expression Float) : Prop :=
  ∃ read, model.constraintExpression (.place row) = .ok read ∧
    read.contents = given.contents ∧ read.relation = given.relation ∧
    model.rightHandSide (.place row) = -given.constant

/-- The objective is read as an expression: with its terms in their order, and
with a constant that compares as equal. -/
def ObjectiveReads (model : Model Float) (given : Expression Float) : Prop :=
  ∃ read, model.objectiveExpression = .ok read ∧
    read.contents.cells = given.contents.cells ∧
    (read.constant == given.constant) = true ∧ read.relation = .affine

/-- Nothing is written to the constraint at a position. -/
def SparesRow (reference : ModelRef) (row : Nat) (workspace : Workspace Float)
    (step : Step Float) : Prop :=
  ∀ write, step.Writes workspace reference write →
    ¬write.TouchesRow (workspace.model reference) row

/-- Nothing is written to the objective. -/
def SparesObjective (reference : ModelRef) (workspace : Workspace Float)
    (step : Step Float) : Prop :=
  ∀ write, step.Writes workspace reference write → ¬write.TouchesObjective

section Reading

variable {model : Model Float}

/-- The variables of an expression have handles in a model. -/
def HasHandles (model : Model Float) (given : Expression Float) : Prop :=
  ∀ term ∈ given.termList, model.HasHandle term.participant.index

/-- The row of an expression over variables that have handles can be read back. -/
private theorem exists_read {admitted : Variable → Prop}
    (sound : given.Sound admitted) (handled : HasHandles model given)
    (relation : Relation) :
    ∃ read,
      (Row.ofExpression given).toExpression model.variableHandles relation = .ok read ∧
        read.contents = given.contents ∧ read.relation = relation := by
  have within : (Row.ofExpression given).Within model.HasHandle :=
    Row.within_ofExpression handled
  have finite := Row.finite_ofExpression sound
  obtain ⟨read, success, reads⟩ := Row.exists_readAs within finite.cells
    finite.constant relation
  refine ⟨read, success, ?_, (Row.parts_of_toExpression success).2⟩
  rw [reads.contents_eq, Row.ofExpression_eq_contents sound]

end Reading

section Constraints

variable {admitted : Variable → Prop} {step : Step Float}
  {changed : Workspace Float} {data : ConstraintRecord Float}

private theorem constraintReads_of_found {model : Model Float}
    (sound : given.Sound admitted) (handled : HasHandles model given)
    (found : model.constraintTable[row]? = some data)
    (kept : data.row = Row.ofExpression given)
    (relation : data.relation = given.relation) :
    ConstraintReads model row given := by
  have stated : (Index.place row).get? model.constraintTable = some data := found
  obtain ⟨read, success, contents, related⟩ := exists_read sound handled given.relation
  refine ⟨read, ?_, contents, related, ?_⟩
  · rw [Model.constraintExpression, Index.entry, stated]
    change data.row.toExpression _ data.relation = _
    rw [kept, relation]
    exact success
  · rw [Model.rightHandSide, Model.row_of_found found, kept,
      Row.constant_ofExpression]

private theorem exists_found (placed : workspace.Placed)
    (stored : reference.id < workspace.models.length)
    (stores : Stores workspace reference row given step)
    (success : step.apply workspace = .ok () changed) :
    ∃ data, (changed.model reference).constraintTable[row]? = some data ∧
      data.row = Row.ofExpression given ∧ data.relation = given.relation := by
  cases stores with
  | added last =>
      obtain ⟨write, accepts, written⟩ :=
        placed.model_of_ok stored (.addConstraint rfl) success
      cases accepts with
      | addConstraint related owned =>
          rw [written, last]
          exact ⟨_, List.getElem?_concat_length, rfl, rfl⟩
  | @replaced constraint number owner place inside =>
      subst owner
      obtain ⟨write, accepts, written⟩ :=
        placed.model_of_ok stored (.setExpression rfl) success
      cases accepts with
      | setExpression related owned listed =>
          have found : constraint.index.get?
              (workspace.model constraint.model).constraintTable =
                some (workspace.model constraint.model).constraintTable[row] := by
            rw [Index.get?, place]
            exact List.getElem?_eq_getElem inside
          have changed := Index.get?_modify_self constraint.index
            (fun data => { data with
              row := Row.ofExpression given
              relation := given.relation })
            (workspace.model constraint.model).constraintTable
          rw [found, Index.get?, place] at changed
          rw [written]
          exact ⟨_, changed, rfl, rfl⟩

end Constraints

section Objective

variable {changed : Workspace Float} {number : Nat}

/-- The objective of a model is a given row, over its variables. -/
private def HasObjective (kept : Row Float) (model : Model Float) : Prop :=
  model.objective = kept ∧ kept.Over model.columnCount

private theorem hasObjective_onto {kept : Row Float} {model : Model Float}
    (holds : HasObjective kept model) {write : Model.Write Float}
    (untouched : ¬write.TouchesObjective) :
    HasObjective kept (write.onto model) := by
  obtain ⟨rfl, spans⟩ := holds
  exact ⟨Model.objective_kept spans untouched,
    spans.mono (model.le_columnCount_onto write)⟩

/-- What is stored as the objective is the sum of the expression alone. -/
private theorem exists_total (placed : workspace.Placed)
    (stored : reference.id < workspace.models.length)
    (filed : (workspace.model reference).Filed)
    (handled : HasHandles (workspace.model reference) given)
    (success : (Step.change reference
      (.setObjective (.expression number given))).apply workspace =
        .ok () changed) :
    ∃ total, Expression.sum [.expression number given] = .ok total ∧
      HasHandles (workspace.model reference) total ∧
      HasObjective (Row.ofExpression total) (changed.model reference) := by
  obtain ⟨write, accepts, written⟩ := placed.model_of_ok stored .change success
  cases accepts with
  | @setObjective value total summed owned =>
      have spans : total.Over (fun participant =>
          (workspace.model reference).HasHandle participant.index) := by
        refine Expression.over_sum ?_ summed
        intro value membership
        cases List.mem_singleton.mp membership
        exact fun entry present => handled _ (List.mem_map_of_mem present)
      have has : HasHandles (workspace.model reference) total := by
        intro term membership
        obtain ⟨entry, present, rfl⟩ := List.mem_map.mp membership
        exact spans entry present
      refine ⟨total, summed, has, ?_⟩
      rw [written]
      exact ⟨rfl, Row.over_iff.mpr (Row.within_ofExpression
        (fun term membership => filed.hasVariable (has term membership)))⟩

/-- The sum of an expression alone is read as this expression. -/
private theorem objectiveReads_of_total {model : Model Float}
    {total : Expression Float} (reachable : given.Reachable (fun _ => True))
    (summed : Expression.sum [.expression number given] = .ok total)
    (handled : HasHandles model total) (holds : model.objective = Row.ofExpression total) :
    ObjectiveReads model given := by
  have sound : total.Sound (fun _ => True) := by
    apply Expression.Reachable.sound
    apply Expression.Reachable.summed _ _ summed
    · exact fun _ _ => trivial
    · intro other expression membership
      cases List.mem_singleton.mp membership
      exact reachable
  have alone := Expression.contents_sum_single reachable.sound summed
  obtain ⟨read, success, contents, related⟩ := exists_read sound handled .affine
  have same := contents.trans alone
  have cells : read.contents.cells = given.contents.cells := by rw [same]
  have constant : read.contents.constant = 0 + given.constant := by rw [same]
  refine ⟨read, ?_, cells, ?_, related⟩
  · rw [Model.objectiveExpression, holds]
    exact success
  · change (read.contents.constant == given.constant) = true
    rw [constant]
    exact Double.beq_zero_add reachable.sound.constant

end Objective

/-- An expression over variables that have handles, once it is accepted as a
constraint, is read back with its terms in their order, its constant and its
relation, and so it is after any steps that write nothing to that constraint.  As
the objective, it is read back in the same way after any steps that write nothing
to the objective; there its relation does not count, and a zero constant may
change its sign. -/
theorem expressions_stored {steps : List (Step Float)} {reference : ModelRef}
    (stored : reference.id < (reached steps).models.length) {number : Nat}
    {given : Expression Float} (reachable : given.Reachable (fun _ => True))
    (handled : HasHandles ((reached steps).model reference) given)
    (later : List (Step Float)) :
    (∀ row step changed, Stores (reached steps) reference row given step →
      step.apply (reached steps) = .ok () changed →
      changed.Throughout later (SparesRow reference row) →
      ConstraintReads ((changed.run later).model reference) row given) ∧
    ∀ changed,
      (Step.change reference (.setObjective (.expression number given))).apply
        (reached steps) = .ok () changed →
      changed.Throughout later (SparesObjective reference) →
      ObjectiveReads ((changed.run later).model reference) given := by
  have sound := reachable.sound
  have placed := placed_reached steps
  -- Handles are kept whatever comes later, the storing of the expression included.
  have still : ∀ {step : Step Float} {changed : Workspace Float} {index : Index},
      step.apply (reached steps) = .ok () changed →
      ((reached steps).model reference).HasHandle index →
      ((changed.run later).model reference).HasHandle index := by
    intro step changed index success has
    rw [← after_of_ok success]
    exact placed.hasHandle_run stored has (step :: later)
  constructor
  · intro row step changed stores success spared
    obtain ⟨data, found, kept, relation⟩ :=
      exists_found placed stored stores success
    obtain ⟨changedPlaced, present⟩ := placed.after_ok stored success
    refine constraintReads_of_found sound
      (fun term membership => still success (handled term membership)) ?_ kept relation
    refine changedPlaced.holds_run
      (fun model => model.constraintTable[row]? = some data)
      present found ?_ (fun _ kept => kept)
    intro earlier step later split write writes kept
    exact Model.constraint_kept kept (spared earlier step later split write writes)
  · intro changed success spared
    obtain ⟨total, summed, has, holds⟩ :=
      exists_total placed stored (filed_reached steps reference) handled success
    obtain ⟨changedPlaced, present⟩ := placed.after_ok stored success
    have kept := changedPlaced.holds_run
      (HasObjective (Row.ofExpression total)) present holds
      (fun earlier step later split write writes holds =>
        hasObjective_onto holds (spared earlier step later split write writes))
      (fun _ holds => holds)
    exact objectiveReads_of_total reachable summed
      (fun term membership => still success (has term membership)) kept.1

section Example

private def small : ModelRef := ⟨0, "m"⟩

private def atPlace (position : Nat) : Variable :=
  { model := small, index := .place position }

/-- Twice the second variable, minus the first one, plus three is at most zero. -/
private def bounded : Expression Float where
  terms := ⟨[(.place 1, ⟨(atPlace 1).participant, 2⟩),
    (.place 0, ⟨(atPlace 0).participant, -1⟩)], by decide⟩
  constant := 3
  relation := .atMost

private def handles : Value Float := .list ([atPlace 1, atPlace 0].map .handle) 0

private def coefficients : Value Float := .list [.number 2, .number (-1)] 0

private theorem bounded_reachable : bounded.Reachable (fun _ => True) := by
  have built : Expression.build (fun _ => .ok 0) handles coefficients (.number 3)
      (.text "<") = .ok bounded := by
    rfl
  exact .built (fun _ _ => trivial) built

/-- A model of two variables, and the expression under the name "e". -/
private def opening : List (Step Float) :=
  [.createModel (.record [("name", .text "m")] 0), .addVariable small .missing,
    .addVariable small .missing,
    .make (.build handles coefficients (.number 3) (.text "<")),
    .assign "e" (.expression 0 bounded)]

private def ending : List (Step Float) :=
  [.edit "e" (.addConstant (.number 1)),
    .change small (.setDirection (.text "MAX"))]

/-- An edit of the expression writes nothing to a model, and the direction is all
that is written after that. -/
private theorem ending_writes (workspace : Workspace Float) :
    workspace.Throughout ending (fun workspace step => ∀ write,
      step.Writes workspace small write → ∃ given, write = .direction given) := by
  intro earlier step later split write writes
  obtain ⟨named, change, meets, _, accepts⟩ := writes
  rcases earlier with _ | ⟨first, _ | ⟨second, earlier⟩⟩
  · cases split
    cases meets
  · cases split
    cases meets
    cases accepts
    exact ⟨_, rfl⟩
  · simp [ending] at split

/-- An expression that is stored twice, as a constraint and as the objective, is
still read back after it was edited itself. -/
theorem expressions_stored_bounded :
    (∃ changed, (Step.addConstraint small (.expression 0 bounded) "").apply
        (reached opening) = .ok () changed ∧
      (((changed.run ending).expression 0).constant == 4) = true ∧
      ConstraintReads ((changed.run ending).model small) 0 bounded) ∧
    ∃ changed, (Step.change small
        (.setObjective (.expression 0 bounded))).apply (reached opening) =
          .ok () changed ∧
      (((changed.run ending).expression 0).constant == 4) = true ∧
      ObjectiveReads ((changed.run ending).model small) bounded := by
  have stored : small.id < (reached opening).models.length := by decide +kernel
  have handled : HasHandles ((reached opening).model small) bounded := by
    unfold HasHandles
    decide +kernel
  obtain ⟨constraints, objective⟩ := @expressions_stored opening small stored 0
    bounded bounded_reachable handled ending
  have owned : ((reached opening).model small).Owns bounded := by
    have reference : ((reached opening).model small).reference = small := by
      decide +kernel
    intro owner stated
    cases stated
    rw [reference]
    rfl
  constructor
  · have accepts : ((reached opening).model small).Accepts
        (.addConstraint bounded "")
        (.newConstraint bounded ""
          (some ((reached opening).model small).nextConstraintHandle)) :=
      .addConstraint nofun owned
    have success : (Step.addConstraint small (.expression 0 bounded) "").apply
        (reached opening) = .ok () _ :=
      (Step.Meets.addConstraint rfl).apply_eq.trans
        (change_of_ok (Model.apply_of_accepts accepts))
    refine ⟨_, success, by decide +kernel, ?_⟩
    apply constraints 0 _ _ (.added _) success
    · intro earlier step later split write writes touches
      obtain ⟨given, rfl⟩ :=
        ending_writes _ earlier step later split write writes
      cases touches
    · decide +kernel
  · have summed : Expression.sum [.expression 0 bounded] =
        .ok { bounded with relation := .affine } := by
      rfl
    have accepts : ((reached opening).model small).Accepts
        (.setObjective (.expression 0 bounded))
        (.objective { bounded with relation := .affine }) :=
      .setObjective summed owned
    have success : (Step.change small
        (.setObjective (.expression 0 bounded))).apply (reached opening) =
          .ok () _ :=
      Step.Meets.change.apply_eq.trans
        (change_of_ok (Model.apply_of_accepts accepts))
    refine ⟨_, success, by decide +kernel, objective _ success ?_⟩
    intro earlier step later split write writes touches
    obtain ⟨given, rfl⟩ :=
      ending_writes _ earlier step later split write writes
    cases touches

end Example

end Workspace

end LinearProgram
