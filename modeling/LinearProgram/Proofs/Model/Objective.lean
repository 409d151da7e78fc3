import LinearProgram.Proofs.Expression.Participants
import LinearProgram.Proofs.Model.Cells

/-!
# The objective of a model

As long as callers only use variables that are in the table, the cells of the
objective belong to them, like those of the constraints.  Its constant is finite
as well: it comes from a sum, which checks it, and nothing else writes it.
-/

namespace LinearProgram

variable {α : Type} [Scalar α]

/-- No update brings in a constant that is not finite. -/
theorem Expression.finite_addMultiple {expression result : Expression α}
    {operand : Value α} {factor : α}
    (finite : Scalar.isFinite expression.constant = true)
    (success : addMultiple operand factor expression = .ok () result) :
    Scalar.isFinite result.constant = true := by
  unfold addMultiple at success
  obtain ⟨accepted, _, added⟩ := Update.ok_of_check_bind success
  cases operand with
  | number amount =>
      obtain ⟨sumFinite, rfl⟩ := constant_of_addConstant added
      exact sumFinite
  | handle handle =>
      obtain ⟨terms, _, rfl⟩ := terms_of_addTerm added
      exact finite
  | expression number other =>
      obtain ⟨terms, _, sumFinite, rfl⟩ := parts_of_addExpression added
      exact sumFinite
  | _ => cases added

theorem Expression.finite_sum [LawfulScalar α] {values : List (Value α)}
    {result : Expression α} (success : sum values = .ok result) :
    Scalar.isFinite result.constant = true := by
  have start : Scalar.isFinite (zero : Expression α).constant = true :=
    LawfulScalar.isFinite_zero
  have kept : ∀ (total : Expression α) (value : Value α) (next : Expression α),
      value ∈ values → Scalar.isFinite total.constant = true →
      total.plus value = .ok next → Scalar.isFinite next.constant = true := by
    intro total value next _ finite added
    exact finite_addMultiple finite (ok_of_after added)
  have finite := Check.foldlM_keeps kept start success
  exact finite

theorem Row.constant_ofExpression (expression : Expression α) :
    (ofExpression expression).constant = expression.constant := by
  have folded : ∀ (terms : List (Term α)) (start : Row α),
      (terms.foldl (fun row term =>
        row.insert term.participant.index term.coefficient) start).constant =
        start.constant := by
    intro terms
    induction terms with
    | nil => exact fun _ => rfl
    | cons term rest induction => exact fun start => induction _
  exact folded _ _

namespace Model

variable {model : Model α}

/-- All cells of the objective belong to variables in the table, and the
constant is finite. -/
structure ObjectiveInRange (model : Model α) : Prop where
  cells : model.objective.Over model.columnCount
  constant : Scalar.isFinite model.objective.constant = true

/-- The variables that a change puts into the objective are in the table. -/
def Change.ObjectiveInRange (model : Model α) : Change α → Prop
  | setObjective given =>
    given.Over (fun participant => model.HasVariable participant.index)
  | storeObjective expression =>
    ∀ term ∈ expression.termList, model.HasVariable term.participant.index
  | setObjectiveCoefficient index _ | storeObjectiveCoefficient index _ =>
    model.HasVariable index
  | _ => True

/-- What a new variable costs is a cell of its own. -/
theorem over_withNewVariable (spans : model.objective.Over model.columnCount)
    (options : VariableOptions α) :
    (model.withNewVariable options).objective.Over
      (model.withNewVariable options).columnCount := by
  have columns : (model.withNewVariable options).columnCount =
      model.columnCount + 1 := by
    simp [Model.withNewVariable, columnCount]
  rw [columns]
  apply (spans.mono (Nat.le_succ _)).insert
  exact ⟨model.columnCount, Nat.lt_succ_self _, rfl⟩

variable {change : Change α} {write : Write α}

/-- Whether or not a change asks, its variables are all that it brings into the
objective. -/
theorem Accepts.objectiveCells (accepts : model.Accepts change write)
    (spans : model.objective.Over model.columnCount)
    (inRange : change.ObjectiveInRange model) :
    (write.onto model).objective.Over (write.onto model).columnCount := by
  have of_same : ∀ changed : Model α, changed.objective = model.objective →
      changed.columnCount = model.columnCount →
      changed.objective.Over changed.columnCount := by
    intro changed row columns
    rwa [row, columns]
  cases accepts with
  | addVariable | storeVariable => exact over_withNewVariable spans _
  | @setObjective given expression summed owned =>
      have known : expression.Over
          (fun participant => model.HasVariable participant.index) := by
        refine Expression.over_sum ?_ summed
        intro value membership
        cases List.mem_singleton.mp membership
        exact inRange
      apply Row.over_iff.mpr
      apply Row.within_ofExpression
      intro term membership
      obtain ⟨entry, present, rfl⟩ := List.mem_map.mp membership
      exact known entry present
  | storeObjective => exact Row.over_iff.mpr (Row.within_ofExpression inRange)
  | @setObjectiveCoefficient index | @storeObjectiveCoefficient index =>
      have cells := (Row.over_iff.mp spans).remove index
      exact Row.over_iff.mpr (cells.insert inRange _)
  | @setName index name =>
      have alike : Alike model _ := alike_name index name
      refine of_same _ ?_ alike.columnCount
      simp only [Write.onto]
      split <;> rfl
  | setLower | setUpper | setKind | storeLower | storeUpper | storeKind =>
      exact of_same _ rfl (Index.length_modify _ _ model.variableTable)
  | _ => exact spans

/-- A change that asks writes no constant but that of a sum. -/
theorem Accepts.objectiveConstant [LawfulScalar α]
    (accepts : model.Accepts change write)
    (finite : Scalar.isFinite model.objective.constant = true)
    (asking : change.asks = true) :
    Scalar.isFinite (write.onto model).objective.constant = true := by
  cases accepts with
  | @setObjective given expression summed owned =>
      change Scalar.isFinite (Row.ofExpression expression).constant = true
      rw [Row.constant_ofExpression]
      exact Expression.finite_sum summed
  | storeObjective => cases asking
  | setName =>
      simp only [Write.onto]
      split <;> exact finite
  | _ => exact finite

/-- A change that asks, and speaks of variables in the table, leaves the
objective in range. -/
theorem Accepts.objective [LawfulScalar α] (accepts : model.Accepts change write)
    (objective : model.ObjectiveInRange) (asking : change.asks = true)
    (inRange : change.ObjectiveInRange model) :
    (write.onto model).ObjectiveInRange where
  cells := accepts.objectiveCells objective.cells inRange
  constant := accepts.objectiveConstant objective.constant asking

/-- The cells of the objective stay in range, whether a change succeeds or is
refused. -/
theorem objectiveCells_after (spans : model.objective.Over model.columnCount)
    (inRange : change.ObjectiveInRange model) :
    (model.after change).objective.Over (model.after change).columnCount := by
  refine @holds_after _ _ model change
    (fun changed => changed.objective.Over changed.columnCount) spans ?_ spans
  intro write accepts
  exact accepts.objectiveCells spans inRange

theorem ObjectiveInRange.after [LawfulScalar α]
    (objective : model.ObjectiveInRange) (asking : change.asks = true)
    (inRange : change.ObjectiveInRange model) :
    (model.after change).ObjectiveInRange := by
  apply holds_after objective
  · intro write accepts
    exact accepts.objective objective asking inRange
  · exact ⟨objective.cells, objective.constant⟩

/-- If all changes ask, and speak of variables in the table, the objective is in
range. -/
theorem objectiveInRange_reached [LawfulScalar α] {reference : ModelRef}
    {direction : Direction} {changes : List (Change α)}
    (asking : ∀ change ∈ changes, change.asks = true)
    (inRange : Throughout reference direction changes
      (fun model change => change.ObjectiveInRange model)) :
    (reached reference direction changes).ObjectiveInRange := by
  have asks : Throughout reference direction changes
      (fun _ change => change.asks = true) :=
    throughout_of_forall (fun _ => asking)
  apply (asks.and inRange).invariant
  · intro model change known objective
    exact objective.after known.1 known.2
  · exact ⟨Row.over_iff.mpr (Row.within_empty 0 _), LawfulScalar.isFinite_zero⟩

end Model

end LinearProgram
