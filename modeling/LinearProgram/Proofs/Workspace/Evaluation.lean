import LinearProgram.Proofs.Expression.Combination
import LinearProgram.Proofs.Model.ExactReading
import LinearProgram.Proofs.Model.SolutionReadings
import LinearProgram.Proofs.Workspace.Runs

/-!
# Values of expressions

While a solution of rationals is loaded, every expression over variables of the
table has a value: the total of its contents at the solution.  So what is known
of the totals of rows holds of values.  A combination has the combined value,
less what its dropped coefficients would have contributed, and the values that a
model computes from its rows are those of the expressions that are read from it.
-/

namespace LinearProgram

/-- The rational for which a variable counts in a solution of rationals. -/
def Model.point (model : Model Exact) (index : Index) : Rat :=
  ((model.value index).getD 0).toRat

/-- There is a solution, with a rational for each variable in the table. -/
structure Model.Solved (model : Model Exact) (data : SolutionData Exact) :
    Prop where
  held : model.solution = some data
  fits : data.values.length = model.columnCount
  rational : ∀ value ∈ data.values, Scalar.isFinite value = true

namespace Model.Solved

variable {model : Model Exact} {data : SolutionData Exact}

theorem get?_eq (solved : model.Solved data) {index : Index}
    (inside : model.HasVariable index) :
    index.get? data.values = some (.finite (model.point index)) := by
  obtain ⟨position, below, rfl⟩ := inside
  have stated : (Index.place position).get? data.values =
      data.values[position]? := rfl
  have present : position < data.values.length := by
    rw [solved.fits]
    exact below
  have found : data.values[position]? = some data.values[position] :=
    List.getElem?_eq_getElem present
  have known : model.value (.place position) = some data.values[position] := by
    rw [Model.value, solved.held, Option.bind_some, stated, found]
  rw [stated, found, Model.point, known, Option.getD_some,
    ← Exact.eq_finite_of_isFinite (solved.rational _ (List.getElem_mem present))]

theorem value_eq (solved : model.Solved data) {index : Index}
    (inside : model.HasVariable index) :
    model.value index = some (.finite (model.point index)) := by
  rw [Model.value, solved.held, Option.bind_some, solved.get?_eq inside]

end Model.Solved

section Rows

variable {model : Model Exact} {data : SolutionData Exact}

theorem Row.activity_eq {row : Row Exact} (rational : row.Rational model.HasVariable)
    (solved : model.Solved data) :
    row.activity data.values =
      .finite (cellActivity model.point row.cells.toList) := by
  have folded : ∀ (cells : List (Index × Exact)) (start : Rat),
      (∀ cell ∈ cells, model.HasVariable cell.1 ∧
        Scalar.isFinite cell.2 = true) →
      cells.foldl (fun total cell =>
        total + cell.2 * (cell.1.get? data.values).getD Scalar.undefined)
        (.finite start) =
      .finite (start + cellActivity model.point cells) := by
    intro cells
    induction cells with
    | nil => exact fun start _ => by simp
    | cons cell rest induction =>
        intro start known
        obtain ⟨inside, finite⟩ := known cell List.mem_cons_self
        rw [List.foldl_cons, solved.get?_eq inside, Option.getD_some,
          Exact.eq_finite_of_isFinite finite, Exact.finite_mul_finite,
          Exact.finite_add_finite, induction _
            (fun other membership => known other (List.mem_cons_of_mem _ membership)),
          cellActivity_cons, add_assoc]
  have sum := folded row.cells.toList 0 (fun cell membership =>
    ⟨(rational.within cell membership).1, rational.cells cell membership⟩)
  rw [zero_add] at sum
  exact sum

theorem Model.Solved.objectiveValue_eq (solved : model.Solved data)
    (rational : model.objective.Rational model.HasVariable)
    (unstated : data.objectiveValue = none) :
    model.objectiveValue = some (.finite (model.objective.total model.point)) := by
  rw [Model.objectiveValue, solved.held, Option.map_some, unstated,
    Option.getD_none, Row.activity_eq rational solved,
    Exact.eq_finite_of_isFinite rational.constant, Exact.finite_add_finite,
    add_comm]
  rfl

theorem Model.Solved.slack_eq (solved : model.Solved data) {index : Index}
    (rational : (model.row index).Rational model.HasVariable) :
    model.slack index =
      some (.finite (-(model.row index).total model.point)) := by
  rw [Model.slack, solved.held, Option.map_some, Row.activity_eq rational solved,
    Exact.eq_finite_of_isFinite rational.constant, Exact.neg_finite,
    Exact.finite_sub_finite, ← neg_add']
  rfl

end Rows

namespace Workspace

variable {workspace : Workspace Exact} {reference : ModelRef}
  {data : SolutionData Exact}

/-- What a value counts for: a number for itself, anything else for what it
states as its value. -/
def Evaluates (workspace : Workspace Exact) (value : Value Exact) (amount : Rat) :
    Prop :=
  match value with
  | .number given => given = .finite amount
  | other => workspace.attributeOf other "x" = .ok (.number (.finite amount))

/-- A handle of a variable that is in the table of a model. -/
def Known (workspace : Workspace Exact) (reference : ModelRef)
    (handle : Variable) : Prop :=
  handle.model = reference ∧
    (workspace.model reference).HasVariable handle.index

section Variables

variable {α : Type} [Scalar α]

/-- Nothing stands in the way of reading the values of variables. -/
theorem firstObstacle?_of_none {obstacle : Participant → Option (Error α)}
    {value : Participant → Option α} {terms : List (Term α)}
    (clear : ∀ term ∈ terms, obstacle term.participant = none) :
    firstObstacle? obstacle value terms = none := by
  induction terms with
  | nil => rfl
  | cons term rest induction =>
      rw [firstObstacle?, clear term List.mem_cons_self, Option.none_or,
        induction (fun other membership =>
          clear other (List.mem_cons_of_mem _ membership)), ite_self]

theorem valueWithin_variable (workspace : Workspace α) (steps : Nat)
    (handle : Variable) :
    workspace.valueWithin steps handle.participant =
      (workspace.model handle.model).value handle.index := by
  cases steps <;> rfl

theorem valueObstacle?_variable (workspace : Workspace α) (steps : Nat)
    (handle : Variable) :
    workspace.valueObstacle? steps handle.participant = none := by
  cases steps <;> rfl

end Variables

/-- The value of an expression is the total of its contents. -/
theorem value_eq_total {expression : Expression Exact}
    (solved : (workspace.model reference).Solved data)
    (sound : expression.Sound (workspace.Known reference)) :
    workspace.value expression = .ok (some (.finite
      (expression.contents.total (workspace.model reference).point))) := by
  have clear : ∀ term ∈ expression.termList,
      workspace.valueObstacle? workspace.heap.size term.participant = none := by
    intro term membership
    obtain ⟨entry, present, rfl⟩ := List.mem_map.mp membership
    obtain ⟨handle, _, participant⟩ := sound.terms.handles entry present
    rw [participant]
    exact workspace.valueObstacle?_variable _ handle
  have known : ∀ entry ∈ expression.terms.toList,
      workspace.participantValue entry.2.participant =
          some (.finite ((workspace.model reference).point entry.1)) ∧
        Scalar.isFinite entry.2.coefficient = true := by
    intro entry present
    obtain ⟨handle, ⟨owner, inside⟩, participant⟩ :=
      sound.terms.handles entry present
    have filed := sound.terms.filed entry present
    rw [participant] at filed
    refine ⟨?_, sound.terms.finite entry present⟩
    rw [participant, participantValue, valueWithin_variable, owner, ← filed]
    exact solved.value_eq inside
  rw [Workspace.value, evaluate, firstObstacle?_of_none clear, Expression.value,
    Exact.eq_finite_of_isFinite sound.constant]
  exact congrArg Except.ok (Expression.accumulate_eq _ known)

theorem evaluates_expression {expression : Expression Exact}
    (solved : (workspace.model reference).Solved data)
    (sound : expression.Sound (workspace.Known reference)) (number : Nat) :
    workspace.Evaluates (.expression number expression)
      (expression.contents.total (workspace.model reference).point) := by
  change (workspace.value expression).map Value.known = _
  rw [value_eq_total solved sound]
  rfl

theorem evaluates_operand {value : Value Exact}
    (solved : (workspace.model reference).Solved data)
    (operand : Operand (workspace.Known reference) value) :
    workspace.Evaluates value
      (value.contents.total (workspace.model reference).point) := by
  cases operand with
  | number amount =>
      change Exact.finite amount = .finite (amount + 0)
      rw [add_zero]
  | @handle handle known =>
      obtain ⟨owner, inside⟩ := known
      have total : (Value.contents (.handle handle)).total
          (workspace.model reference).point =
            (workspace.model reference).point handle.index := by
        change (0 : Exact).toRat + cellActivity _ [(handle.index, 1)] = _
        rw [cellActivity_cons, cellActivity_nil, Exact.zero_eq, Exact.one_eq]
        simp
      rw [total]
      change Except.ok (Value.known ((workspace.model handle.model).value
        handle.index)) = _
      rw [owner, solved.value_eq inside]
      rfl
  | expression reachable => exact evaluates_expression solved reachable.sound _

/-- An expression counts for one operand and a multiple of another one, less what
the lost coefficients would contribute.  These are within the tolerance, and all
other coefficients add up. -/
structure Linear (workspace : Workspace Exact) (reference : ModelRef)
    (start operand : Value Exact) (factor : Rat) (result : Expression Exact) :
    Prop where
  lost : ∀ index ∈ Row.lost start.contents operand.contents factor,
    |Row.residue start.contents operand.contents factor index| ≤ 1e-12 ∧
      index ∉ result.terms.keys ∧
      (workspace.model reference).value index =
        some (.finite ((workspace.model reference).point index))
  kept : ∀ index ∉ Row.lost start.contents operand.contents factor,
    result.terms.coefficient index =
      .finite (Row.residue start.contents operand.contents factor index)
  value : ∃ first second, workspace.Evaluates start first ∧
    workspace.Evaluates operand second ∧
    ∀ number, workspace.Evaluates (.expression number result)
      (first + factor * second -
        ∑ index ∈ Row.lost start.contents operand.contents factor,
          Row.residue start.contents operand.contents factor index *
            (workspace.model reference).point index)

/-- An expression that a model reads from a row evaluates to an amount. -/
def ReadsTo (workspace : Workspace Exact)
    (read : Except (Error Exact) (Expression Exact)) (amount : Rat) : Prop :=
  ∃ expression, read = .ok expression ∧
    ∀ number, workspace.Evaluates (.expression number expression) amount

/-- What a combination makes is linear in its operands. -/
theorem linear_of_combination {start operand : Value Exact} {factor : Rat}
    {outcome : Except (Error Exact) (Expression Exact)}
    (solved : (workspace.model reference).Solved data)
    (combination : Combination start operand factor outcome)
    (given : Operand (workspace.Known reference) start)
    (summand : Operand (workspace.Known reference) operand) :
    ∃ result, outcome = .ok result ∧
      workspace.Linear reference start operand factor result := by
  have indices : ∀ handle, workspace.Known reference handle →
      (workspace.model reference).HasVariable handle.index :=
    fun _ known => known.2
  have startRational := given.rational indices
  have operandRational := summand.rational indices
  obtain ⟨result, made, sound, contents⟩ :=
    combination.makes (fun _ known => known.1) given summand
  refine ⟨result, made, ?_, ?_, ?_⟩
  · intro index dropped
    obtain ⟨occurs, small⟩ := Finset.mem_filter.mp dropped
    refine ⟨small, ?_, solved.value_eq ?_⟩
    · rw [← Expression.keys_contents, contents]
      exact Row.not_mem_keys_of_lost startRational operandRational dropped
    · exact Row.mem_of_occurring startRational.within operandRational.within occurs
  · intro index kept
    rw [← Expression.coefficient_contents, contents]
    exact Row.coefficient_of_not_lost startRational operandRational kept
  · refine ⟨_, _, evaluates_operand solved given, evaluates_operand solved summand, ?_⟩
    intro number
    rw [← Row.total_plusMultiple startRational operandRational, ← contents]
    exact evaluates_expression solved sound number

theorem readsTo_total {row : Row Exact} {relation : Relation}
    (named : (workspace.model reference).reference = reference)
    (paired : (workspace.model reference).Paired)
    (solved : (workspace.model reference).Solved data)
    (rational : row.Rational (workspace.model reference).HasVariable) :
    workspace.ReadsTo
      (row.toExpression (workspace.model reference).variableHandles relation)
      (row.total (workspace.model reference).point) := by
  have within : row.Within (workspace.model reference).HasHandle :=
    rational.within.mono (fun _ inside => paired.hasHandle inside)
  obtain ⟨read, success, reads⟩ :=
    Row.exists_readAs within rational.cells rational.constant relation
  have sound : read.Sound (workspace.Known reference) := by
    apply Expression.toExpression_sound _ success
    intro cell membership handle found
    cases (within cell membership).1.symm.trans found
    exact ⟨named, (rational.within cell membership).1⟩
  refine ⟨read, success, fun number => ?_⟩
  rw [← reads.contents_eq]
  exact evaluates_expression solved sound number

/-- While a solution of rationals is loaded, every combination of numbers,
variables and expressions of the model has the combined value, less what its
dropped coefficients would contribute.  Unless a value of the objective came with
the solution, it is that of the expression which is read as the objective, and
every slack is minus the value of the expression which is read as the
constraint. -/
theorem evaluation_linear {direction : Direction}
    {changes : List (Model.Change Exact)}
    (stored : workspace.model reference =
      Model.reached reference direction changes)
    (held : (workspace.model reference).solution = some data)
    (rational : ∀ value ∈ data.values, Scalar.isFinite value = true) :
    (∀ start operand factor outcome, Combination start operand factor outcome →
      Operand (workspace.Known reference) start →
      Operand (workspace.Known reference) operand →
      ∃ result, outcome = .ok result ∧
        workspace.Linear reference start operand factor result) ∧
    ((∀ change ∈ changes, change.asks = true) →
      Model.Throughout reference direction changes (fun model change =>
        change.InRange model ∧ change.ObjectiveInRange model) →
      (workspace.model reference).FiniteRows →
      (workspace.model reference).objective.FiniteCells →
      (data.objectiveValue = none → ∃ amount,
        workspace.ReadsTo (workspace.model reference).objectiveExpression amount ∧
        (workspace.model reference).objectiveValue = some (.finite amount)) ∧
      ∀ index, (workspace.model reference).ListsConstraint index → ∃ amount,
        workspace.ReadsTo
          ((workspace.model reference).constraintExpression index) amount ∧
        (workspace.model reference).slack index = some (.finite (-amount))) := by
  have named : (workspace.model reference).reference = reference := by
    rw [stored, Model.reference_reached]
  have fits : (workspace.model reference).Fits data := by
    rw [stored] at held ⊢
    exact (Model.tracked_reached reference direction changes).consistent.fits data held
  have solved : (workspace.model reference).Solved data :=
    ⟨held, fits.values, rational⟩
  constructor
  · intro start operand factor outcome combination given summand
    exact linear_of_combination solved combination given summand
  · intro asking inRange finiteRows finiteObjective
    have paired : (workspace.model reference).Paired := by
      rw [stored]
      exact Model.paired_reached reference direction (fun change membership =>
        Model.Change.registers_of_asks (asking change membership))
    constructor
    · intro unstated
      have objective : (workspace.model reference).ObjectiveInRange := by
        rw [stored]
        exact Model.objectiveInRange_reached asking
          (inRange.mono (fun _ _ known => known.2))
      have row : (workspace.model reference).objective.Rational
          (workspace.model reference).HasVariable :=
        ⟨Row.over_iff.mp objective.cells, finiteObjective, objective.constant⟩
      refine ⟨(workspace.model reference).objective.total
        (workspace.model reference).point, ?_, solved.objectiveValue_eq row unstated⟩
      exact readsTo_total named paired solved row
    · intro index listed
      have rows : (workspace.model reference).RowsInRange := by
        rw [stored]
        exact Model.rowsInRange_reached (inRange.mono (fun _ _ known => known.1))
      have finite := Model.row_of_forall (fun row : Row Exact => row.FiniteCells ∧
        Scalar.isFinite row.constant = true) finiteRows ⟨nofun, rfl⟩ index
      have row : ((workspace.model reference).row index).Rational
          (workspace.model reference).HasVariable :=
        ⟨Row.over_iff.mp (rows.row index), finite.1, finite.2⟩
      refine ⟨((workspace.model reference).row index).total
        (workspace.model reference).point, ?_, solved.slack_eq row⟩
      rw [Model.constraintExpression_eq listed]
      exact readsTo_total named paired solved row

section Example

private def weighed : ModelRef := ⟨0, "m"⟩

private def weight (position : Nat) : Variable :=
  weighed.variable (.place position)

/-- The sum of the first variable and twice the second one is at most eight. -/
private def limited : Expression Exact where
  terms := ⟨[(.place 0, ⟨(weight 0).participant, .finite 1⟩),
    (.place 1, ⟨(weight 1).participant, .finite 2⟩)], by decide⟩
  constant := .finite (-8)
  relation := .atMost

/-- Almost minus the first variable. -/
private def opposite : Expression Exact where
  terms := ⟨[(.place 0, ⟨(weight 0).participant, .finite (1e-13 - 1)⟩)], by decide⟩
  constant := .finite 0

private def weighing : List (Model.Change Exact) :=
  List.replicate 2 (.addVariable .missing) ++ [.addConstraint limited ""] ++
    [.setObjective (.expression 0 opposite)] ++
    [.loadSolution (.record [("status", .number (.finite 0)),
      ("x", .list [.number (.finite 2), .number (.finite 3)] 1)] 2)]

private def scales : Workspace Exact :=
  { models := [Model.reached weighed .minimize weighing] }

private def measured : SolutionData Exact where
  statusNumber := .finite 0
  status := .optimal
  objectiveValue := none
  values := [.finite 2, .finite 3]
  pool := none
  reducedCosts := none
  duals := none

private theorem weight_known : ∀ handle ∈ [weight 0, weight 1],
    scales.Known weighed handle := by
  have columns : (scales.model weighed).columnCount = 2 := by decide +kernel
  unfold Known Model.HasVariable
  rw [columns]
  decide

private theorem operand_of_build {handles : List Variable}
    (coefficients constant relation : Value Exact) {number : Nat}
    {expression : Expression Exact}
    (known : ∀ handle ∈ handles, scales.Known weighed handle)
    (built : (Expression.build (fun _ => .ok 0) (.list (handles.map .handle) 0)
      coefficients constant relation).toOption = some expression) :
    Operand (scales.Known weighed) (.expression number expression) :=
  .expression (.built known (Check.ok_of_toOption built))

private theorem weighing_inRange :
    Model.Throughout weighed .minimize weighing (fun model change =>
      change.InRange model ∧ change.ObjectiveInRange model) := by
  refine Model.throughout_concat.mpr ⟨Model.throughout_concat.mpr
    ⟨Model.throughout_concat.mpr ⟨Model.throughout_of_forall ?_, ?_⟩, ?_⟩, ?_⟩
  · intro model change membership
    rw [List.eq_of_mem_replicate membership]
    exact ⟨trivial, trivial⟩
  all_goals simp only [Model.Change.InRange, Model.Change.ObjectiveInRange,
    Value.Over, Expression.Over, Terms.Over, Model.HasVariable]
  all_goals decide +kernel

/-- The coefficients of the first variable almost cancel.  It is lost, and with it
two tenth parts of the tolerance. -/
theorem evaluation_linear_opposed :
    Row.lost limited.contents opposite.contents 1 = {.place 0} ∧
    (∃ result, Operator.plus.apply (.expression 0 limited)
        (.expression 1 opposite) = .ok result ∧
      scales.Linear weighed (.expression 0 limited) (.expression 1 opposite) 1
        result) ∧
    (∃ amount,
      scales.ReadsTo (scales.model weighed).objectiveExpression amount ∧
      (scales.model weighed).objectiveValue = some (.finite amount)) ∧
    ∃ amount,
      scales.ReadsTo ((scales.model weighed).constraintExpression (.place 0))
        amount ∧
      (scales.model weighed).slack (.place 0) = some (.finite (-amount)) := by
  have held : (scales.model weighed).solution = some measured := by decide +kernel
  have rational : ∀ value ∈ measured.values, Scalar.isFinite value = true := by
    decide
  obtain ⟨linear, alike⟩ :=
    @evaluation_linear scales weighed measured .minimize weighing rfl held rational
  have first : Operand (scales.Known weighed) (.expression 0 limited) :=
    operand_of_build (.list [.number (.finite 1), .number (.finite 2)] 0)
      (.number (.finite (-8))) (.text "<") weight_known (by decide +kernel)
  have second : Operand (scales.Known weighed) (.expression 1 opposite) :=
    operand_of_build (.list [.number (.finite (1e-13 - 1))] 0)
      (.number (.finite 0)) (.text "")
      (fun handle listed => weight_known handle (List.mem_cons.mpr
        (.inl (List.mem_singleton.mp listed)))) (by decide +kernel)
  have asking : ∀ change ∈ weighing, change.asks = true := by decide
  have finiteRows : (scales.model weighed).FiniteRows := by
    unfold Model.FiniteRows
    decide +kernel
  have finiteObjective : (scales.model weighed).objective.FiniteCells := by
    unfold Row.FiniteCells
    decide +kernel
  obtain ⟨objective, slack⟩ := alike asking weighing_inRange finiteRows finiteObjective
  exact ⟨by decide +kernel, linear _ _ _ _ (.plus rfl _) first second,
    objective rfl, slack (.place 0) (by decide +kernel)⟩

end Example

end Workspace

end LinearProgram
