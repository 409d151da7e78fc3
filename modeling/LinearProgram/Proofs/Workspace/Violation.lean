import LinearProgram.Proofs.Double.Magnitude
import LinearProgram.Proofs.Double.Product
import LinearProgram.Proofs.Model.Readable
import LinearProgram.Proofs.Workspace.Evaluation

/-!
# Slacks and violations

While a solution is loaded, a constraint has a slack, which is computed from its row,
and the expression that is read from it has a violation, which is computed from
the values of its variables.  Both sum up the same products in the same order.  Then
one takes the difference to the right hand side one way round, and the other the
other way round, which are opposite up to the sign of a zero.  So the two agree
to the last bit.
-/

namespace LinearProgram

/-- The amount by which a slack falls short of what a relation asks for. -/
def shortfall (relation : Relation) (slack : Float) : Option Float :=
  match relation with
  | .affine => none
  | .equal => some (Scalar.magnitude slack)
  | .atMost => some (Scalar.larger (-slack) 0)
  | .atLeast => some (Scalar.larger slack 0)

/-- A slack is what a relation asks for. -/
def Satisfies (relation : Relation) (slack : Float) : Prop :=
  match relation with
  | .affine => False
  | .equal => (slack == 0) = true
  | .atMost => 0 ≤ slack
  | .atLeast => slack ≤ 0

/-- A violation is the shortfall of a slack.  It is zero exactly if the relation is
satisfied, and undefined exactly if the slack is. -/
structure Agreement (relation : Relation) (slack violation : Float) : Prop where
  amount : shortfall relation slack = some violation
  zero_iff : (violation == 0) = true ↔ Satisfies relation slack
  undefined_iff : Scalar.isUndefined violation = Scalar.isUndefined slack

section Relations

variable {relation : Relation} {slack violation : Float}

/-- The violation is computed from the opposite difference. -/
theorem excess_eq_shortfall (relation : Relation) (left right : Float) :
    Expression.excess relation left right = shortfall relation (right - left) := by
  cases relation with
  | affine => rfl
  | atLeast => rfl
  | equal =>
      apply congrArg some
      rcases Double.sub_swap right left with opposite | ⟨⟨_, zero⟩, _, other⟩
      · rw [opposite, Double.magnitude_neg]
      · rw [Double.magnitude_of_zero zero, Double.magnitude_of_zero other]
  | atMost =>
      apply congrArg some
      rcases Double.sub_swap right left with opposite | ⟨⟨sign, zero⟩, _, other⟩
      · rw [opposite]
      · have negated : Double.parts (-(right - left)) = .zero (-sign) := by
          rw [Double.parts_neg, zero]
          rfl
        rw [Double.larger_zero_of_zero negated, Double.larger_zero_of_zero other]

theorem exists_shortfall (related : relation ≠ .affine) (slack : Float) :
    ∃ amount, shortfall relation slack = some amount := by
  cases relation with
  | affine => exact absurd rfl related
  | _ => exact ⟨_, rfl⟩

theorem agreement_of_shortfall (amount : shortfall relation slack = some violation) :
    Agreement relation slack violation := by
  cases relation with
  | affine => cases amount
  | equal =>
      cases amount
      refine ⟨rfl, ?_, Double.isUndefined_magnitude⟩
      rw [Double.magnitude_beq_zero]
      rfl
  | atMost =>
      cases amount
      refine ⟨rfl, ?_, ?_⟩
      · rw [Double.larger_zero_beq_zero]
        exact Double.neg_le_zero_iff
      · rw [Double.isUndefined_larger_zero, Double.isUndefined_neg]
  | atLeast =>
      cases amount
      exact ⟨rfl, Double.larger_zero_beq_zero, Double.isUndefined_larger_zero⟩

end Relations

section Sums

variable {assignment : Participant → Option Float} {values : List Float}
  {reference : ModelRef}

/-- The terms of a row have a sum where all of its variables have values, and it is the
activity of the row. -/
theorem Expression.accumulate_cells {cells : List (Index × Float)} {start total : Float}
    (known : ∀ index, assignment (reference.variable index).participant =
      index.get? values) :
    accumulate assignment start
        (cells.map (fun cell => Row.termOf reference cell.1 cell.2)) = some total ↔
      (∀ cell ∈ cells, (cell.1.get? values).isSome = true) ∧
        total = cells.foldl (fun sum cell =>
          sum + cell.2 * (cell.1.get? values).getD Scalar.undefined) start := by
  induction cells generalizing start with
  | nil =>
      have nothing : accumulate assignment start [] = some start := rfl
      rw [List.map_nil, nothing, List.foldl_nil, Option.some_inj, eq_comm]
      exact (and_iff_right (List.forall_mem_nil _)).symm
  | cons cell rest induction =>
      have first : accumulate assignment start
          ((cell :: rest).map (fun cell => Row.termOf reference cell.1 cell.2)) =
            ((cell.1.get? values).map (fun value => start + value * cell.2)).bind
              (fun sum => accumulate assignment sum
                (rest.map (fun cell => Row.termOf reference cell.1 cell.2))) := by
        rw [← known]
        rfl
      rw [first, List.forall_mem_cons, List.foldl_cons]
      cases found : cell.1.get? values with
      | none => simp
      | some value =>
          rw [Option.map_some, Option.bind_some, induction, Double.mul_comm value]
          simp

end Sums

namespace Workspace

variable {workspace : Workspace Float} {reference : ModelRef} {row : Nat}

/-- What is known of the slack of a constraint, and of the violation of the expression
that is read from it. -/
structure Gauged (workspace : Workspace Float) (reference : ModelRef) (row : Nat)
    (slack : Float) : Prop where
  known : (workspace.model reference).slack (.place row) = some slack
  agrees : ∀ expression violation,
    (workspace.model reference).constraintExpression (.place row) = .ok expression →
    workspace.violation expression = .ok (some violation) →
    Agreement ((workspace.model reference).relation (.place row)) slack violation
  /-- The violation is known if all cells are of variables that have handles. -/
  violated : ((workspace.model reference).row (.place row)).Within
      (workspace.model reference).HasHandle →
    (workspace.model reference).relation (.place row) ≠ .affine →
    ∃ expression violation,
      (workspace.model reference).constraintExpression (.place row) = .ok expression ∧
        workspace.violation expression = .ok (some violation)

/-- Nothing stands in the way of the violation of an expression that is read from a
row. -/
theorem violation_of_reads {stored : Row Float} {expression : Expression Float}
    (reads : stored.ReadAs reference expression) :
    workspace.violation expression =
      expression.violation workspace.participantValue := by
  have clear : ∀ term ∈ expression.termList,
      workspace.valueObstacle? workspace.heap.size term.participant = none := by
    intro term membership
    obtain ⟨entry, present, rfl⟩ := List.mem_map.mp membership
    rw [reads.terms] at present
    obtain ⟨cell, _, rfl⟩ := List.mem_map.mp present
    exact workspace.valueObstacle?_variable _ (reference.variable cell.1)
  rw [violation, evaluate, firstObstacle?_of_none clear]

/-- The handles that a model keeps for its variables have the values of its solution. -/
theorem participantValue_variable {data : SolutionData Float} (placed : workspace.Placed)
    (held : (workspace.model reference).solution = some data) (index : Index) :
    workspace.participantValue
        ((workspace.model reference).reference.variable index).participant =
      index.get? data.values := by
  have stored : reference.id < workspace.models.length := by
    by_contra absent
    have nothing : workspace.models[reference.id]? = none :=
      List.getElem?_eq_none (Nat.le_of_not_lt absent)
    rw [Workspace.model, nothing] at held
    cases held
  have same : workspace.model ((workspace.model reference).reference) =
      workspace.model reference := model_congr (placed.id_model reference) stored
  rw [participantValue, valueWithin_variable]
  change (workspace.model ((workspace.model reference).reference)).value index = _
  rw [same, Model.value, held]
  rfl

/-- What the violation of an expression comes to that is read from a row. -/
theorem violation_eq_some_iff {data : SolutionData Float} (placed : workspace.Placed)
    (held : (workspace.model reference).solution = some data) {stored : Row Float}
    {expression : Expression Float}
    (reads : stored.ReadAs (workspace.model reference).reference expression)
    {amount : Float} :
    workspace.violation expression = .ok (some amount) ↔
      (∀ cell ∈ stored.cells.toList, (cell.1.get? data.values).isSome = true) ∧
        shortfall expression.relation (-stored.constant - stored.activity data.values) =
          some amount := by
  have terms : expression.termList = stored.cells.toList.map (fun cell =>
      Row.termOf (workspace.model reference).reference cell.1 cell.2) := by
    rw [Expression.termList, OrderedMap.values, reads.terms, List.map_map]
    rfl
  have sum := fun total => @Expression.accumulate_cells workspace.participantValue data.values
    (workspace.model reference).reference stored.cells.toList 0 total
    (participantValue_variable placed held)
  rw [violation_of_reads reads, Expression.violation, terms, reads.constant]
  cases left : Expression.accumulate workspace.participantValue 0
      (stored.cells.toList.map (fun cell =>
        Row.termOf (workspace.model reference).reference cell.1 cell.2)) with
  | none =>
      simp only [left, reduceCtorEq, false_iff] at sum
      constructor
      · intro impossible
        cases impossible
      · rintro ⟨known, _⟩
        exact absurd ⟨known, rfl⟩ (sum _)
  | some total =>
      obtain ⟨known, rfl⟩ := (sum total).mp left
      have active : stored.activity data.values = stored.cells.toList.foldl (fun sum cell =>
        sum + cell.2 * (cell.1.get? data.values).getD Scalar.undefined) 0 := rfl
      simp only [excess_eq_shortfall, ← active]
      cases shortfall expression.relation
          (-stored.constant - stored.activity data.values) with
      | none => simp
      | some short =>
          rw [Except.ok.injEq, Option.some_inj]
          exact (and_iff_right known).symm

/-- What can be read is of variables that have handles, if no text in the place of an
index spells out a place. -/
theorem within_of_constraintExpression {model : Model Float} (filed : model.Filed)
    (large : model.RowsWithin (fun _ => True))
    (settled : ∀ cell ∈ (model.row (.place row)).cells.toList, cell.1.settled = cell.1)
    {read : Expression Float}
    (success : model.constraintExpression (.place row) = .ok read) :
    (model.row (.place row)).Within model.HasHandle := by
  obtain ⟨kept, found⟩ := Row.exists_kept_of_toExpression
    (Model.toExpression_of_constraintExpression success)
  have stored := Model.row_of_forall (fun row => row.Within (fun _ => True)) large
    (Row.within_empty 0 _) (.place row)
  intro cell membership
  exact ⟨filed.hasHandle (settled cell membership) (found cell membership),
    (stored cell membership).2⟩

/-- Whatever a caller does: while a solution is loaded, every constraint of finite numbers
has a slack, and the violation of its expression is what the slack falls short by. -/
theorem slack_gauged {steps : List (Step Float)} {reference : ModelRef} {row : Nat}
    (present : row < ((reached steps).model reference).rowCount)
    {data : SolutionData Float}
    (held : ((reached steps).model reference).solution = some data)
    (finite : (((reached steps).model reference).row (.place row)).FiniteCells)
    (rightHandSide : Scalar.isFinite
      (((reached steps).model reference).rightHandSide (.place row)) = true)
    (settled : ∀ cell ∈ (((reached steps).model reference).row (.place row)).cells.toList,
      cell.1.settled = cell.1) :
    ∃ slack, (reached steps).Gauged reference row slack := by
  have placed : (reached steps).Placed := placed_reached steps
  have filed := filed_reached steps reference
  obtain ⟨start, direction, changes, same, _⟩ := fromNew_reached steps reference
  have fits : ((reached steps).model reference).Fits data := by
    rw [same] at held ⊢
    exact (Model.tracked_reached start direction changes).consistent.fits data held
  have large : ((reached steps).model reference).RowsWithin (fun _ => True) := by
    rw [same]
    exact Model.large_reached start direction changes
  have constant : Scalar.isFinite
      (((reached steps).model reference).row (.place row)).constant = true := by
    rw [← Double.isFinite_neg]
    exact rightHandSide
  refine ⟨-(((reached steps).model reference).row (.place row)).constant -
    (((reached steps).model reference).row (.place row)).activity data.values,
    ?known, ?agrees, ?violated⟩
  case known =>
    rw [Model.slack, held]
    rfl
  case agrees =>
    intro expression amount given violated
    have handled := within_of_constraintExpression filed large settled given
    obtain ⟨read, success, reads, related⟩ :=
      Model.exists_constraintReading present handled finite constant
    cases success.symm.trans given
    obtain ⟨_, short⟩ := (violation_eq_some_iff placed held reads).mp violated
    rw [related] at short
    exact agreement_of_shortfall short
  case violated =>
    intro handled notAffine
    obtain ⟨read, success, reads, related⟩ :=
      Model.exists_constraintReading present handled finite constant
    have known : ∀ cell ∈ (((reached steps).model reference).row
        (.place row)).cells.toList, (cell.1.get? data.values).isSome = true := by
      intro cell membership
      obtain ⟨position, inside, place⟩ :=
        filed.hasVariable (handled cell membership).1
      rw [← fits.values] at inside
      rw [place]
      exact Option.isSome_iff_exists.mpr ⟨_, List.getElem?_eq_getElem inside⟩
    obtain ⟨amount, short⟩ : ∃ amount, shortfall read.relation _ = some amount :=
      exists_shortfall (related ▸ notAffine) _
    exact ⟨read, amount, success,
      (violation_eq_some_iff placed held reads).mpr ⟨known, short⟩⟩

section Overrun

private def overrunModel : ModelRef := ⟨0, "m"⟩

/-- The sum of two variables is at most five, but both are three. -/
private def overrunning : List (Step Float) :=
  [.createModel (.record [("name", .text "m")] 0), .addVariable overrunModel .missing,
    .addVariable overrunModel .missing,
    .addConstraint overrunModel (.expression 0 atMostFive) "",
    .loadSolution overrunModel (.record [("status", .number 0),
      ("x", .list [.number 3, .number 3] 1)] 2)]
where
  atMostFive : Expression Float := {
    terms := ⟨[(.place 0, ⟨(overrunModel.variable (.place 0)).participant, 1⟩),
      (.place 1, ⟨(overrunModel.variable (.place 1)).participant, 1⟩)], by simp⟩
    constant := -5
    relation := .atMost }

/-- The slack is negative, and the violation is what it falls short by. -/
theorem slack_gauged_overrunning :
    ∃ expression, ((reached overrunning).model overrunModel).constraintExpression
        (.place 0) = .ok expression ∧
      (reached overrunning).violation expression = .ok (some 1) ∧
      ((reached overrunning).model overrunModel).slack (.place 0) = some (-1) := by
  obtain ⟨data, held⟩ : ∃ data,
      ((reached overrunning).model overrunModel).solution = some data := by
    rw [← Option.isSome_iff_exists]
    decide +kernel
  obtain ⟨slack, gauged⟩ := @slack_gauged overrunning overrunModel 0
    (by decide +kernel) data held (by unfold Row.FiniteCells; decide +kernel)
    (by decide +kernel) (by decide +kernel)
  have known : ((reached overrunning).model overrunModel).slack (.place 0) =
      some (-1) := by
    decide +kernel
  obtain ⟨expression, amount, success, violated⟩ := gauged.violated
    (by unfold Row.Within; decide +kernel) (by decide +kernel)
  have agreed := gauged.agrees expression amount success violated
  cases known.symm.trans gauged.known
  have atMost : ((reached overrunning).model overrunModel).relation (.place 0) =
      .atMost := by
    decide +kernel
  have short : shortfall .atMost (-1) = some 1 := by decide
  rw [atMost] at agreed
  cases short.symm.trans agreed.amount
  exact ⟨expression, success, violated, known⟩

end Overrun

end Workspace

end LinearProgram
