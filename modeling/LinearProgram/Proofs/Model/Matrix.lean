import LinearProgram.Proofs.Expression.Storage
import LinearProgram.Proofs.Model.Objective

/-!
# Views of the matrix

The matrix is stored by rows.  Its columns, the number of its cells and the
expressions of constraints and objective are derived from them whenever they are
read.  If all that is stored is finite, these readings succeed and agree with
each other: a cell is in the expression of its constraint exactly if it is in
the column of its variable, and both ways to count them come to the same number.
-/

namespace LinearProgram

namespace Row

variable {row : Row Float} {count : Nat}

/-- The cells of a row are distinct, large enough to be kept, and of variables in
the table. -/
structure Tidy (row : Row Float) (count : Nat) : Prop where
  known : ∀ cell ∈ row.cells.toList,
    ∃ position < count, cell.1 = .place position
  once : (row.cells.toList.map Prod.fst).Nodup
  large : ∀ cell ∈ row.cells.toList,
    Scalar.epsilon < Scalar.magnitude cell.2

theorem Over.tidy (spans : row.Over count) (finite : row.FiniteCells) :
    row.Tidy count where
  known := fun cell membership => (spans cell membership).1
  once := row.cells.distinct
  large := fun cell membership =>
    LawfulScalar.epsilon_lt_magnitude (finite cell membership)
      (spans cell membership).2

/-- What is kept in a cell is not zero. -/
theorem Over.beq_zero_eq (spans : row.Over count) (index : Index) :
    (row.coefficient index == 0) = !row.cells.contains index := by
  unfold coefficient OrderedMap.contains
  cases found : row.cells.get? index with
  | none => decide
  | some amount =>
      have present := OrderedMap.get?_eq_some_iff.mp found
      exact Double.beq_zero_of_large (spans _ present).2

theorem FiniteCells.coefficient (finite : row.FiniteCells) (index : Index) :
    Scalar.isFinite (row.coefficient index) = true := by
  unfold Row.coefficient
  cases found : row.cells.get? index with
  | none => exact LawfulScalar.isFinite_zero
  | some amount =>
      have present := OrderedMap.get?_eq_some_iff.mp found
      exact finite (index, amount) present

/-- A row has as many cells as there are variables in it. -/
theorem Over.size_eq (spans : row.Over count) :
    row.size = ((Finset.range count).filter
      (fun position => row.cells.contains (.place position) = true)).card := by
  have places : row.cells.keys.toFinset = ((Finset.range count).filter
      (fun position => row.cells.contains (.place position) = true)).image
        Index.place := by
    ext index
    simp only [List.mem_toFinset, Finset.mem_image, Finset.mem_filter,
      Finset.mem_range, OrderedMap.contains_iff]
    constructor
    · intro listed
      obtain ⟨cell, membership, rfl⟩ := List.mem_map.mp listed
      obtain ⟨position, inside, place⟩ := (spans cell membership).1
      exact ⟨position, ⟨inside, place ▸ listed⟩, place.symm⟩
    · rintro ⟨position, ⟨_, listed⟩, rfl⟩
      exact listed
  have injective : Function.Injective Index.place :=
    fun _ _ same => Index.place.inj same
  calc row.size = row.cells.keys.length := (List.length_map _).symm
    _ = row.cells.keys.toFinset.card :=
        (List.toFinset_card_of_nodup row.cells.distinct).symm
    _ = _ := by rw [places, Finset.card_image_of_injective _ injective]

end Row

/-- Constraints and finite coefficients that are read off the same list can be
paired. -/
theorem Column.exists_pair {α β : Type} [Scalar α] {items : List β}
    {constraint : β → Participant} {coefficient : β → α}
    (finite : ∀ item ∈ items, Scalar.isFinite (coefficient item) = true) :
    ∃ column, Column.pair (items.map constraint) (items.map coefficient) =
        .ok column ∧
      column.entries =
        items.map (fun item => (constraint item, coefficient item)) := by
  have paired : (items.map constraint).zip (items.map coefficient) =
      items.map (fun item => (constraint item, coefficient item)) :=
    List.zip_map'
  unfold Column.pair
  rw [if_neg (by simp)]
  split
  · rename_i amount rejected
    have listed := List.mem_of_find?_eq_some rejected
    obtain ⟨item, membership, rfl⟩ := List.mem_map.mp listed
    have unfinite := List.find?_some rejected
    rw [finite item membership] at unfinite
    cases unfinite
  · exact ⟨_, rfl, paired⟩

namespace Model

section Rows

variable {α : Type} [Scalar α] {model : Model α}

theorem row_place {row : Nat} (present : row < model.constraintTable.length) :
    model.row (.place row) = model.constraintTable[row].row := by
  have found : model.constraintTable[row]? = some model.constraintTable[row] :=
    List.getElem?_eq_getElem present
  simp [Model.row, Index.get?, Index.position?, found]

theorem listsConstraint_place {row : Nat} (present : row < model.rowCount) :
    model.ListsConstraint (.place row) := by
  have found : model.constraintTable[row]? = some model.constraintTable[row] :=
    List.getElem?_eq_getElem present
  simp [ListsConstraint, Index.get?, Index.position?, found]

/-- The expression of a constraint is read off its row. -/
theorem constraintExpression_eq {index : Index} (listed : model.ListsConstraint index) :
    model.constraintExpression index =
      (model.row index).toExpression model.variableHandles (model.relation index) := by
  obtain ⟨data, found⟩ := Option.isSome_iff_exists.mp listed
  rw [constraintExpression, Model.row, relation, Index.entry, found]
  rfl

/-- What is read as the expression of a constraint is read off its row. -/
theorem toExpression_of_constraintExpression {index : Index} {read : Expression α}
    (success : model.constraintExpression index = .ok read) :
    (model.row index).toExpression model.variableHandles (model.relation index) =
      .ok read := by
  obtain ⟨data, found, _⟩ := Check.ok_of_bind success
  have listed : model.ListsConstraint index := Index.isSome_of_entry found
  rw [← constraintExpression_eq listed]
  exact success

/-- A constraint of finite numbers can be read, if all its cells are of variables that
have handles. -/
theorem exists_constraintReading [NeutralZero α] {row : Nat}
    (present : row < model.rowCount)
    (handled : (model.row (.place row)).Within model.HasHandle)
    (finite : (model.row (.place row)).FiniteCells)
    (constant : Scalar.isFinite (model.row (.place row)).constant = true) :
    ∃ read, model.constraintExpression (.place row) = .ok read ∧
      (model.row (.place row)).ReadAs model.reference read ∧
      read.relation = model.relation (.place row) := by
  obtain ⟨read, success, reads⟩ := Row.exists_readAs handled finite constant
    (model.relation (.place row))
  rw [constraintExpression_eq (listsConstraint_place present)]
  exact ⟨read, success, reads, (Row.parts_of_toExpression success).2⟩

/-- What holds of all rows in the table, and of the empty one, holds of the row
at any index. -/
theorem row_of_forall (property : Row α → Prop)
    (holds : ∀ data ∈ model.constraintTable, property data.row)
    (empty : property { constant := 0 }) (index : Index) :
    property (model.row index) := by
  unfold Model.row
  cases found : index.get? model.constraintTable with
  | none => exact empty
  | some data => exact holds data (Index.mem_of_get? found)

theorem RowsInRange.row (rows : model.RowsInRange) (index : Index) :
    (model.row index).Over model.columnCount :=
  row_of_forall (fun row => row.Over model.columnCount) rows
    (Row.over_iff.mpr (Row.within_empty 0 _)) index

/-- Reading the table in order is reading the rows by their positions. -/
theorem map_zipIdx_table {β : Type} (model : Model α)
    (reading : Nat → Row α → β) :
    model.constraintTable.zipIdx.map
        (fun entry => reading entry.2 entry.1.row) =
      (List.range model.rowCount).map
        (fun row => reading row (model.row (.place row))) := by
  apply List.ext_getElem
  · simp [rowCount]
  · intro row inside _
    have present : row < model.constraintTable.length := by
      simpa using inside
    simp only [List.getElem_map, List.getElem_zipIdx, List.getElem_range,
      Nat.zero_add, row_place present]

/-- A cell of a column is in a row of the table. -/
theorem place_of_mem_columnCells {index : Index} {cell : Index × α}
    (membership : cell ∈ model.columnCells index) :
    ∃ row < model.rowCount, cell.1 = .place row := by
  obtain ⟨entry, inside, rfl⟩ := List.mem_map.mp (List.mem_filter.mp membership).1
  exact ⟨entry.2, List.snd_lt_of_mem_zipIdx inside, rfl⟩

/-- Where all constraints have handles, a column is read over these. -/
theorem column_eq_pair (paired : model.Paired) (index : Index) :
    model.column index = Column.pair
      ((model.columnCells index).map
        (fun cell => (model.constraintHandle cell.1).participant))
      ((model.columnCells index).map Prod.snd) := by
  have found : (model.columnCells index).mapM
      (fun cell => (cell.1.entry model.constraintHandles : Except (Error α) _)) =
        .ok ((model.columnCells index).map (fun cell => model.constraintHandle cell.1)) := by
    apply Check.mapM_eq_ok
    intro cell membership
    obtain ⟨row, inside, place⟩ := place_of_mem_columnCells membership
    have kept := paired.constraintHandle? inside
    unfold constraintHandle? at kept
    rw [Index.entry, place, kept]
  rw [column, found]
  change Column.pair _ _ = _
  rw [List.map_map]
  rfl

/-- A column that can be read pairs the cells with some constraints. -/
theorem exists_pair_of_column {index : Index} {read : Column α}
    (success : model.column index = .ok read) :
    ∃ constraints, Column.pair constraints
      ((model.columnCells index).map Prod.snd) = .ok read := by
  obtain ⟨constraints, _, paired⟩ := Check.ok_of_bind success
  exact ⟨_, paired⟩

theorem cellCount_eq : model.cellCount =
    ∑ row ∈ Finset.range model.rowCount, (model.row (.place row)).size := by
  have unnumbered : model.constraintTable.zipIdx.map Prod.fst =
      model.constraintTable := List.zipIdx_map_fst 0 _
  have listed := model.map_zipIdx_table (fun _ row => row.size)
  calc model.cellCount
      = (model.constraintTable.map (fun data => data.row.size)).sum := by
        rw [List.sum_eq_foldl, List.foldl_map]
        rfl
    _ = (model.constraintTable.zipIdx.map
          (fun entry => entry.1.row.size)).sum := by
        rw [← unnumbered, List.map_map, unnumbered]
        rfl
    _ = _ := by
        rw [listed]
        rfl

end Rows

section Readings

variable {model : Model Float}

/-- All coefficients and right hand sides are finite. -/
structure StoresFinite (model : Model Float) : Prop where
  cells : ∀ data ∈ model.constraintTable, data.row.FiniteCells
  rightHandSides : ∀ data ∈ model.constraintTable,
    Scalar.isFinite (-data.row.constant) = true
  objective : model.objective.FiniteCells

theorem StoresFinite.row (finite : model.StoresFinite) (index : Index) :
    (model.row index).FiniteCells :=
  row_of_forall Row.FiniteCells finite.cells nofun index

theorem StoresFinite.constant (finite : model.StoresFinite) (index : Index) :
    Scalar.isFinite (model.row index).constant = true := by
  apply row_of_forall (fun row => Scalar.isFinite row.constant = true)
  · intro data membership
    rw [← Double.isFinite_neg]
    exact finite.rightHandSides data membership
  · exact LawfulScalar.isFinite_zero

/-- The expression of a constraint can be read. -/
theorem exists_constraintExpression (paired : model.Paired) (rows : model.RowsInRange)
    (finite : model.StoresFinite) {row : Nat} (present : row < model.rowCount) :
    ∃ read, model.constraintExpression (.place row) = .ok read ∧
      (model.row (.place row)).ReadAs model.reference read := by
  obtain ⟨read, success, reads, _⟩ := exists_constraintReading present
    (paired.keeps (rows.row _)) (finite.row _) (finite.constant _)
  exact ⟨read, success, reads⟩

/-- The expression of the objective can be read. -/
theorem exists_objectiveExpression (paired : model.Paired)
    (objective : model.ObjectiveInRange) (finite : model.objective.FiniteCells) :
    ∃ read, model.objectiveExpression = .ok read ∧
      model.objective.ReadAs model.reference read :=
  Row.exists_readAs (paired.keeps objective.cells) finite objective.constant .affine

/-- A constraint has a cell of a variable. -/
def filled (model : Model Float) (row column : Nat) : Bool :=
  (model.row (.place row)).cells.contains (.place column)

/-- The constraints that have a cell of a variable, in the order of the table. -/
def filledRows (model : Model Float) (column : Nat) : List Nat :=
  (List.range model.rowCount).filter (fun row => model.filled row column)

theorem columnCells_eq (rows : model.RowsInRange) (column : Nat) :
    model.columnCells (.place column) =
      (model.filledRows column).map (fun row => (.place row,
        (model.row (.place row)).coefficient (.place column))) := by
  have listed := model.map_zipIdx_table (fun row cells =>
    (Index.place row, cells.coefficient (.place column)))
  rw [columnCells, listed, List.filter_map]
  apply congrArg
  apply List.filter_congr
  intro row _
  simp only [Function.comp_apply, filled, (rows.row _).beq_zero_eq,
    Bool.not_not]

/-- The column of a variable can be read. -/
theorem exists_column (paired : model.Paired) (rows : model.RowsInRange)
    (finite : model.StoresFinite) (column : Nat) :
    ∃ read, model.column (.place column) = .ok read ∧
      read.entries = (model.filledRows column).map (fun row =>
        ((model.constraintHandle (.place row)).participant,
          (model.row (.place row)).coefficient (.place column))) := by
  simp only [column_eq_pair paired, columnCells_eq rows, List.map_map]
  apply Column.exists_pair
  intro row _
  exact (finite.row (.place row)).coefficient _

theorem length_filledRows (column : Nat) :
    (model.filledRows column).length = ((Finset.range model.rowCount).filter
      (fun row => model.filled row column = true)).card := by
  simp [filledRows, Finset.card, Finset.filter, Finset.range, Multiset.range]

/-- The cells of all rows are the cells of all columns. -/
theorem cellCount_eq_columns (rows : model.RowsInRange) :
    model.cellCount = ∑ column ∈ Finset.range model.columnCount,
      (model.filledRows column).length := by
  simp only [cellCount_eq, (rows.row _).size_eq, length_filledRows]
  exact Finset.sum_card_bipartiteAbove_eq_sum_card_bipartiteBelow
    (fun row column => model.filled row column = true)

end Readings

section Agreement

variable {model : Model Float}

/-- The handle that a model keeps for the variable at a position. -/
def variableAt (model : Model Float) (column : Nat) : Participant :=
  (model.handle (.place column)).participant

/-- The handle that a model keeps for the constraint at a position. -/
def constraintAt (model : Model Float) (row : Nat) : Participant :=
  (model.constraintHandle (.place row)).participant

/-- The expressions of all constraints, the columns of all variables and the
expression of the objective, as they are read, agree with each other and with
what is read without them. -/
structure AgreeingViews (model : Model Float)
    (expressions : Nat → Expression Float) (columns : Nat → Column Float)
    (objective : Expression Float) : Prop where
  rows_tidy : ∀ data ∈ model.constraintTable, data.row.Tidy model.columnCount
  objective_tidy : model.objective.Tidy model.columnCount
  expression_read : ∀ row < model.rowCount,
    model.constraintExpression (.place row) = .ok (expressions row)
  column_read : ∀ column < model.columnCount,
    model.column (.place column) = .ok (columns column)
  objective_read : model.objectiveExpression = .ok objective
  contains_iff : ∀ row < model.rowCount, ∀ column < model.columnCount,
    ∀ coefficient,
      (expressions row).has (model.variableAt column) = true ∧
          (expressions row).coefficient (model.variableAt column) = coefficient ↔
        (model.constraintAt row, coefficient) ∈ (columns column).entries
  /-- A column lists its constraints once, in the order of the table. -/
  listed_once : ∀ column < model.columnCount,
    (columns column).entries.map Prod.fst =
      ((List.range model.rowCount).filter (fun row =>
        (expressions row).has (model.variableAt column))).map model.constraintAt
  cells_of_rows : model.cellCount =
    ∑ row ∈ Finset.range model.rowCount, (expressions row).size
  cells_of_columns : model.cellCount =
    ∑ column ∈ Finset.range model.columnCount, (columns column).size
  objective_coefficient : ∀ column < model.columnCount,
    model.objectiveCoefficient (.place column) =
      objective.coefficient (model.variableAt column)

theorem constraintAt_injective {row other : Nat}
    (same : model.constraintAt row = model.constraintAt other) : row = other :=
  Index.place.inj (congrArg Participant.index same)

/-- Where there are handles for the whole table, all cells are of variables in it, and
all numbers are finite, all views can be read, and agree. -/
theorem agreeingViews_of_inRange (paired : model.Paired) (rows : model.RowsInRange)
    (objectiveInRange : model.ObjectiveInRange) (finite : model.StoresFinite) :
    ∃ expressions columns objective,
      model.AgreeingViews expressions columns objective := by
  have readable : ∀ row, ∃ read, row < model.rowCount →
      model.constraintExpression (.place row) = .ok read ∧
        (model.row (.place row)).ReadAs model.reference read := by
    intro row
    by_cases present : row < model.rowCount
    · obtain ⟨read, reads⟩ := exists_constraintExpression paired rows finite present
      exact ⟨read, fun _ => reads⟩
    · exact ⟨Expression.zero, fun inside => absurd inside present⟩
  choose expressions reads using readable
  choose columns columnsRead entries using exists_column paired rows finite
  obtain ⟨objective, objectiveRead, objectiveReads⟩ :=
    exists_objectiveExpression paired objectiveInRange finite.objective
  have has_eq : ∀ row < model.rowCount, ∀ column,
      (expressions row).has (model.variableAt column) =
        model.filled row column :=
    fun row present column => (reads row present).2.has_eq (.place column)
  have coefficient_eq : ∀ row < model.rowCount, ∀ column,
      (expressions row).coefficient (model.variableAt column) =
        (model.row (.place row)).coefficient (.place column) :=
    fun row present column => (reads row present).2.coefficient_eq (.place column)
  refine ⟨expressions, columns, objective, ?_⟩
  exact {
    rows_tidy := fun data membership =>
      (rows data membership).tidy (finite.cells data membership)
    objective_tidy := objectiveInRange.cells.tidy finite.objective
    expression_read := fun row present => (reads row present).1
    column_read := fun column _ => columnsRead column
    objective_read := objectiveRead
    contains_iff := by
      intro row present column _ coefficient
      rw [has_eq row present, coefficient_eq row present, entries, List.mem_map]
      constructor
      · rintro ⟨contained, rfl⟩
        exact ⟨row, List.mem_filter.mpr ⟨List.mem_range.mpr present, contained⟩,
          rfl⟩
      · rintro ⟨other, listed, same⟩
        obtain ⟨sameRow, amount⟩ := Prod.mk.inj same
        cases constraintAt_injective sameRow
        exact ⟨(List.mem_filter.mp listed).2, amount⟩
    listed_once := by
      intro column _
      have filled : (List.range model.rowCount).filter (fun row =>
          (expressions row).has (model.variableAt column)) = model.filledRows column :=
        List.filter_congr (fun row inside => has_eq row (List.mem_range.mp inside) column)
      rw [filled, entries, List.map_map]
      rfl
    cells_of_rows := by
      rw [cellCount_eq]
      apply Finset.sum_congr rfl
      intro row inside
      exact (reads row (Finset.mem_range.mp inside)).2.size_eq.symm
    cells_of_columns := by
      rw [cellCount_eq_columns rows]
      apply Finset.sum_congr rfl
      intro column _
      rw [Column.size, entries, List.length_map]
    objective_coefficient := fun column _ =>
      (objectiveReads.coefficient_eq (.place column)).symm }

/-- In a run of changes that ask, over variables in the table, all views of the
matrix agree whenever all numbers in it are finite. -/
theorem exists_agreeingViews {reference : ModelRef} {direction : Direction}
    {changes : List (Change Float)}
    (asking : ∀ change ∈ changes, change.asks = true)
    (inRange : Throughout reference direction changes (fun model change =>
      change.InRange model ∧ change.ObjectiveInRange model))
    (finite : (reached reference direction changes).StoresFinite) :
    ∃ expressions columns objective,
      (reached reference direction changes).AgreeingViews
        expressions columns objective := by
  have paired := paired_reached reference direction
    (fun change membership => Change.registers_of_asks (asking change membership))
  have rows := rowsInRange_reached (inRange.mono (fun _ _ known => known.1))
  have objective := objectiveInRange_reached asking
    (inRange.mono (fun _ _ known => known.2))
  exact agreeingViews_of_inRange paired rows objective finite

end Agreement

section Filled

private def filledVariable (position : Nat) : Participant :=
  (ModelRef.variable ⟨0, "m"⟩ (.place position)).participant

private def filledConstraint (position : Nat) : Participant :=
  Constraint.participant { model := ⟨0, "m"⟩, index := .place position }

/-- The first variable is at most one. -/
private def firstFilled : Expression Float where
  terms := ⟨[(.place 0, ⟨filledVariable 0, 1⟩)], by simp⟩
  constant := -1
  relation := .atMost

/-- The sum of both variables is four. -/
private def secondFilled : Expression Float where
  terms := ⟨[(.place 0, ⟨filledVariable 0, 1⟩),
    (.place 1, ⟨filledVariable 1, 1⟩)], by simp⟩
  constant := -4
  relation := .equal

/-- A column that names the second constraint twice. -/
private def filledColumn : Column Float :=
  ⟨[(filledConstraint 1, 2), (filledConstraint 0, 0.5),
    (filledConstraint 1, -2)], by decide⟩

private def filledTables : List (Change Float) :=
  List.replicate 2 (.addVariable .missing) ++ [.addConstraint firstFilled ""] ++
    [.addConstraint secondFilled ""]

private def filling : List (Change Float) :=
  filledTables ++ [.setColumn (.place 1) (.column 0 filledColumn)] ++
    [.setObjectiveCoefficient (.place 1) (.number 3)]

private theorem filled_inRange :
    Throughout ⟨0, "m"⟩ .minimize filling (fun model change =>
      change.InRange model ∧ change.ObjectiveInRange model) := by
  refine throughout_concat.mpr ⟨throughout_concat.mpr ⟨throughout_concat.mpr
    ⟨throughout_concat.mpr ⟨throughout_of_forall ?_, ?_⟩, ?_⟩, ?_⟩, ?_⟩
  · intro model change membership
    rw [List.eq_of_mem_replicate membership]
    exact ⟨trivial, trivial⟩
  all_goals simp only [Change.InRange, Change.ObjectiveInRange, HasVariable]
  all_goals decide +kernel

private theorem filled_finite :
    (reached ⟨0, "m"⟩ .minimize filling).StoresFinite where
  cells := by
    simp only [Row.FiniteCells]
    decide +kernel
  rightHandSides := by decide +kernel
  objective := by
    simp only [Row.FiniteCells]
    decide +kernel

/-- The coefficients for the second constraint cancel, so the matrix has three
cells: one of the first variable in each constraint, and one of the second
variable in the first constraint. -/
theorem agreeingViews_filled :
    (reached ⟨0, "m"⟩ .minimize filling).cellCount = 3 ∧
      ∃ expressions columns objective,
        (reached ⟨0, "m"⟩ .minimize filling).AgreeingViews
          expressions columns objective := by
  have asking : ∀ change ∈ filling, change.asks = true := by decide
  exact ⟨by decide +kernel,
    exists_agreeingViews asking filled_inRange filled_finite⟩

end Filled

end Model

end LinearProgram
