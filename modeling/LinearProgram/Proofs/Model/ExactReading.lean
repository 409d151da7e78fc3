import LinearProgram.Proofs.Double.Binary
import LinearProgram.Proofs.Literal
import LinearProgram.Proofs.Model.Cells
import LinearProgram.Proofs.Model.RowConflict

/-!
# Models read exactly

What the conflicts of a model are derived from, with its doubles read as exact
numbers: the bounds of the variables, the constraints, and the pairs that were
recorded.  The indices stay as they are, and so do the keys.
-/

namespace LinearProgram

/-- A row, its numbers read exactly. -/
def Row.exact (row : Row Float) : Row Exact where
  constant := .ofScalar row.constant
  cells := row.cells.map .ofScalar

/-- A constraint, its numbers read exactly. -/
def ConstraintRecord.exact (data : ConstraintRecord Float) :
    ConstraintRecord Exact :=
  ⟨data.name, data.row.exact, data.relation⟩

/-- The bounds of a variable, read exactly.  Its kind has no part in conflicts. -/
def VariableRecord.exact (data : VariableRecord Float) : VariableRecord Exact :=
  ⟨data.name, .ofScalar data.lower, .ofScalar data.upper, .listed .continuous⟩

namespace Model

/-- A model, its numbers read exactly.  A solution has no part in conflicts. -/
def exact (model : Model Float) : Model Exact where
  reference := model.reference
  variableTable := model.variableTable.map VariableRecord.exact
  constraintTable := model.constraintTable.map ConstraintRecord.exact
  objective := model.objective.exact
  direction := model.direction
  conflicts := model.conflicts

/-- Every variable has bounds between which there are values. -/
def Boxed (model : Model Exact) : Prop :=
  ∀ data ∈ model.variableTable, data.lower ≤ data.upper ∧
    data.lower < Scalar.infinity ∧ -Scalar.infinity < data.upper

/-- Every constraint has finite coefficients and a finite right hand side. -/
def FiniteRows (model : Model Exact) : Prop :=
  ∀ data ∈ model.constraintTable,
    (∀ cell ∈ data.row.cells.toList, Scalar.isFinite cell.2 = true) ∧
      Scalar.isFinite data.row.constant = true

variable {model : Model Float}

/-- Reading a model exactly does not change which pairs were recorded. -/
theorem recorded_exact {first second : Assignment} (firstPlaced : first.Placed)
    (secondPlaced : second.Placed) :
    model.exact.recorded first second = model.recorded first second := by
  obtain ⟨positive, index⟩ := first
  obtain ⟨otherPositive, otherIndex⟩ := second
  obtain ⟨position, rfl⟩ := firstPlaced
  obtain ⟨otherPosition, rfl⟩ := secondPlaced
  rfl

private theorem bounds_of_boxed {lower upper : Exact}
    (ordered : lower ≤ upper) (below : lower < Scalar.infinity)
    (above : -Scalar.infinity < upper) : Exact.Bounds lower upper := by
  refine ⟨?_, ?_, ordered⟩
  · cases lower with
    | finite least => exact .finite least
    | undefined => cases below
    | infinite negative =>
        cases negative with
        | true => exact .unbounded
        | false => cases below
  · cases upper with
    | finite greatest => exact .finite greatest
    | undefined => cases above
    | infinite negative =>
        cases negative with
        | true => cases above
        | false => exact .unbounded

private theorem exists_factor {coefficient : Exact}
    (finite : Scalar.isFinite coefficient = true)
    (nonzero : coefficient ≠ .finite 0) :
    ∃ factor : Rat, factor ≠ 0 ∧ coefficient = .finite factor := by
  cases coefficient with
  | infinite negative => cases finite
  | undefined => cases finite
  | finite factor =>
      refine ⟨factor, ?_, rfl⟩
      intro zero
      exact nonzero (congrArg Exact.finite zero)

/-- A cell of the model read exactly was a cell of the model. -/
private theorem exists_cell {data : ConstraintRecord Exact}
    (membership : data ∈ model.exact.constraintTable) {cell : Index × Exact}
    (present : cell ∈ data.row.cells.toList) :
    ∃ original ∈ model.constraintTable, ∃ value : Float,
      (cell.1, value) ∈ original.row.cells.toList ∧
        cell.2 = .ofScalar value := by
  obtain ⟨original, originalMembership, rfl⟩ := List.mem_map.mp membership
  obtain ⟨⟨index, value⟩, originalPresent, rfl⟩ := List.mem_map.mp present
  exact ⟨original, originalMembership, value, originalPresent, rfl⟩

/-- Cells of variables in the table count, and are bounded. -/
theorem Boxed.bounded (boxed : model.exact.Boxed) (rows : model.RowsInRange)
    (finite : model.exact.FiniteRows) {data : ConstraintRecord Exact}
    (membership : data ∈ model.exact.constraintTable) {cell : Index × Exact}
    (present : cell ∈ data.row.cells.toList) : model.exact.Bounded cell := by
  obtain ⟨original, originalMembership, value, originalPresent, read⟩ :=
    exists_cell membership present
  obtain ⟨⟨position, inside, place⟩, large⟩ :=
    rows original originalMembership _ originalPresent
  have nonzero : cell.2 ≠ .finite 0 := by
    rw [read]
    exact Double.ofScalar_ne_zero large
  have insideExact : position < model.exact.variableTable.length := by
    simpa [exact, columnCount] using inside
  have found : model.exact.variableTable[position]? =
      some model.exact.variableTable[position] :=
    List.getElem?_eq_getElem insideExact
  obtain ⟨ordered, below, above⟩ := boxed _ (List.mem_of_getElem? found)
  refine ⟨exists_factor ((finite data membership).1 cell present) nonzero, ?_⟩
  have bounds : model.exact.bounds cell.1 =
      (model.exact.variableTable[position].lower,
        model.exact.variableTable[position].upper) := by
    rw [place]
    simp [Model.bounds, Index.get?, Index.position?, found]
  rw [bounds]
  exact bounds_of_boxed ordered below above

end Model

end LinearProgram
