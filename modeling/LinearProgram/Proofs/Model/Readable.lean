import LinearProgram.Model.Report
import LinearProgram.Proofs.Expression.Reachable
import LinearProgram.Proofs.Model.Coefficients
import LinearProgram.Proofs.Options

/-!
# Models that can be read back

A model stores numbers, and what is read from it are expressions and columns,
which have finite numbers only.  Expressions and columns are checked when a
caller makes them.  Two writes make new numbers of what was checked, or take a
number that was not: a column that names a constraint more than once is added up
in its row, and a right hand side is any number.  So a model can be read back
for as long as no such sum overflows and no right hand side is infinite or
undefined; its objective can be read back in any case.
-/

namespace LinearProgram

/-- All coefficients and the constant of a row are finite. -/
structure Row.Finite (row : Row Float) : Prop where
  cells : row.FiniteCells
  constant : Scalar.isFinite row.constant = true

theorem Row.finite_ofExpression {expression : Expression Float}
    {admitted : Variable → Prop} (sound : expression.Sound admitted) :
    (ofExpression expression).Finite where
  cells := finiteCells_ofExpression sound
  constant := by
    rw [constant_ofExpression]
    exact sound.constant

/-- Coefficients that are paired with constraints are finite. -/
theorem Column.finite_of_pair {α : Type} [Scalar α]
    {constraints : List Participant} {coefficients : List α}
    {column : Column α} (success : pair constraints coefficients = .ok column) :
    ∀ coefficient ∈ coefficients, Scalar.isFinite coefficient = true := by
  intro coefficient membership
  unfold pair at success
  split at success
  · cases success
  · split at success
    · cases success
    · rename_i rejected
      simpa using List.find?_eq_none.mp rejected coefficient membership

namespace Model

variable {model : Model Float}

/-- The objective, all constraints, as expressions and as texts, and all columns
can be read. -/
structure Readable (model : Model Float) : Prop where
  objective : ∃ read, model.objectiveExpression = .ok read
  expressions : ∀ row < model.rowCount,
    ∃ read, model.constraintExpression (.place row) = .ok read
  texts : ∀ row < model.rowCount,
    ∃ text, model.renderConstraint (.place row) = .ok text
  columns : ∀ column < model.columnCount,
    ∃ read, model.column (.place column) = .ok read

/-- Every constraint has a relation. -/
def Related (model : Model Float) : Prop :=
  ∀ data ∈ model.constraintTable, data.relation ≠ .affine

/-- What holds of a model in a run of changes that ask, over variables in the
table, whether or not it can be read.  In particular, all that is in its tables has
handles. -/
structure Orderly (model : Model Float) : Prop where
  paired : model.Paired
  rows : model.RowsInRange
  objective : model.ObjectiveInRange
  costs : model.objective.FiniteCells
  related : model.Related

section Finite

/-- All rows are finite. -/
def RowsFinite (model : Model Float) : Prop :=
  ∀ row < model.rowCount, (model.row (.place row)).Finite

theorem exists_position {data : ConstraintRecord Float}
    (membership : data ∈ model.constraintTable) :
    ∃ row < model.rowCount, model.row (.place row) = data.row := by
  obtain ⟨row, present, same⟩ := List.mem_iff_getElem.mp membership
  exact ⟨row, present, by rw [row_place present, same]⟩

theorem storesFinite_iff (costs : model.objective.FiniteCells) :
    model.StoresFinite ↔ model.RowsFinite := by
  constructor
  · intro finite row _
    exact ⟨finite.row _, finite.constant _⟩
  · intro finite
    constructor
    case cells =>
      intro data membership
      obtain ⟨row, present, same⟩ := exists_position membership
      rw [← same]
      exact (finite row present).cells
    case rightHandSides =>
      intro data membership
      obtain ⟨row, present, same⟩ := exists_position membership
      rw [Double.isFinite_neg, ← same]
      exact (finite row present).constant
    case objective => exact costs

end Finite

section Reading

theorem relation_place {row : Nat}
    (present : row < model.constraintTable.length) :
    model.relation (.place row) = model.constraintTable[row].relation := by
  have found : (Index.place row).get? model.constraintTable =
      some model.constraintTable[row] := List.getElem?_eq_getElem present
  rw [Model.relation, found]
  rfl

theorem Orderly.exists_objective (orderly : model.Orderly) :
    ∃ read, model.objectiveExpression = .ok read := by
  obtain ⟨read, success, _⟩ :=
    exists_objectiveExpression orderly.paired orderly.objective orderly.costs
  exact ⟨read, success⟩

theorem Orderly.exists_text (orderly : model.Orderly) (finite : model.StoresFinite)
    {row : Nat} (present : row < model.rowCount) :
    ∃ text, model.renderConstraint (.place row) = .ok text := by
  obtain ⟨read, success, _⟩ :=
    exists_constraintExpression orderly.paired orderly.rows finite present
  have relation := (Row.parts_of_toExpression (toExpression_of_constraintExpression success)).2
  have related : read.relation ≠ .affine := by
    rw [relation, relation_place present]
    exact orderly.related _ (List.getElem_mem _)
  simp only [renderConstraint, success, bind, Except.bind, if_neg related]
  exact ⟨_, rfl⟩

/-- Every cell is in the column of its variable, which is read with finite
coefficients only. -/
theorem Readable.finiteCells (readable : model.Readable)
    (rows : model.RowsInRange) {row : Nat} (present : row < model.rowCount) :
    (model.row (.place row)).FiniteCells := by
  intro cell membership
  obtain ⟨⟨column, inside, place⟩, _⟩ := rows.row (.place row) cell membership
  obtain ⟨index, amount⟩ := cell
  subst place
  have found := OrderedMap.get?_eq_some_iff.mpr membership
  have filled : row ∈ model.filledRows column := by
    apply List.mem_filter.mpr
    refine ⟨List.mem_range.mpr present, ?_⟩
    rw [Model.filled, OrderedMap.contains, found]
    rfl
  obtain ⟨read, success⟩ := readable.columns column inside
  obtain ⟨constraints, paired⟩ := exists_pair_of_column success
  have finite := Column.finite_of_pair paired
  rw [columnCells_eq rows, List.map_map] at finite
  have listed := finite _ (List.mem_map_of_mem filled)
  simp only [Function.comp_apply, Row.coefficient, found,
    Option.getD_some] at listed
  exact listed

/-- The right hand side of a constraint is in its expression. -/
theorem Readable.rowsFinite (readable : model.Readable)
    (rows : model.RowsInRange) : model.RowsFinite := by
  intro row present
  obtain ⟨read, success⟩ := readable.expressions row present
  exact ⟨readable.finiteCells rows present,
    (Row.parts_of_toExpression (toExpression_of_constraintExpression success)).1⟩

/-- A model can be read exactly if all that it stores is finite. -/
theorem Orderly.readable_iff (orderly : model.Orderly) :
    model.Readable ↔ model.StoresFinite := by
  constructor
  · intro readable
    exact (storesFinite_iff orderly.costs).mpr (readable.rowsFinite orderly.rows)
  · intro finite
    constructor
    case objective => exact orderly.exists_objective
    case expressions =>
      intro row present
      obtain ⟨read, success, _⟩ :=
        exists_constraintExpression orderly.paired orderly.rows finite present
      exact ⟨read, success⟩
    case texts => exact fun _ => orderly.exists_text finite
    case columns =>
      intro column _
      obtain ⟨read, success, _⟩ := exists_column orderly.paired orderly.rows finite column
      exact ⟨read, success⟩

end Reading

section Writing

/-- The amounts of a column for one of the constraints add up to a number that is
not finite. -/
def Overflows (model : Model Float) (entries : List (Participant × Float)) :
    Prop :=
  ∃ row < model.rowCount,
    Scalar.isFinite (Row.accumulated 0 (amountsAt row entries)) = false

/-- A write puts a number into a row that is not finite. -/
def Write.Spoils (model : Model Float) : Write Float → Prop
  | newVariable options _ => model.Overflows (entriesOf options)
  | entries _ given => model.Overflows given
  | rightHandSide index value =>
    (∃ row < model.rowCount, index.position? = some row) ∧
      Scalar.isFinite value = false
  | _ => False

/-- A change is accepted and spoils a row. -/
def Spoils (model : Model Float) (change : Change Float) : Prop :=
  ∃ write, model.Accepts change write ∧ write.Spoils model

/-- The expressions of a change are of the kind that a caller can come by. -/
def Change.FromCaller : Change Float → Prop
  | addConstraint expression _ | setExpression _ expression =>
    Expression.Reachable (fun _ => True) expression
  | setObjective given => ∀ number expression,
    given = .expression number expression →
      Expression.Reachable (fun _ => True) expression
  | _ => True

/-- A change comes with its checks, its expressions are of the kind that a caller
can come by, and it speaks of variables in the table. -/
structure Change.Proper (model : Model Float) (change : Change Float) :
    Prop where
  asks : change.asks = true
  fromCaller : change.FromCaller
  inRange : change.InRange model
  objectiveInRange : change.ObjectiveInRange model

/-- Written where no row has anything, a column leaves all rows finite unless it
overflows. -/
theorem RowsFinite.withEntries_iff (finite : model.RowsFinite) {index : Index}
    (empty : ∀ row < model.rowCount,
      (model.row (.place row)).coefficient index = 0)
    (entries : List (Participant × Float)) :
    (model.withEntries index entries).RowsFinite ↔
      ¬model.Overflows entries := by
  have written : ∀ row < model.rowCount,
      (((model.withEntries index entries).row (.place row)).Finite ↔
        Scalar.isFinite (Row.accumulated 0 (amountsAt row entries)) = true) := by
    intro row present
    have cells := Row.finiteCells_insertAll_iff (finite row present).cells index
      (amountsAt row entries)
    rw [empty row present] at cells
    rw [row_withEntries index entries present, ← cells]
    constructor
    · exact fun finiteRow => finiteRow.cells
    · intro finiteCells
      refine ⟨finiteCells, ?_⟩
      rw [Row.constant_insertAll]
      exact (finite row present).constant
  simp only [RowsFinite, rowCount_withEntries, Overflows, not_exists, not_and,
    Bool.not_eq_false]
  constructor
  · exact fun all row present => (written row present).mp (all row present)
  · exact fun all row present => (written row present).mpr (all row present)

theorem RowsFinite.withoutCells (finite : model.RowsFinite) (index : Index) :
    (model.withoutCells index).RowsFinite := by
  intro row present
  rw [rowCount_withoutCells] at present
  rw [row_withoutCells index present]
  exact ⟨(finite row present).cells.remove index, (finite row present).constant⟩

/-- Where one constraint is changed, all rows stay finite exactly if its row does,
if there is one. -/
theorem RowsFinite.withConstraint_iff (finite : model.RowsFinite) {index : Index}
    {change : ConstraintRecord Float → ConstraintRecord Float}
    (write : Row Float → Row Float)
    (writes : ∀ data, (change data).row = write data.row) :
    (model.withConstraint index change).RowsFinite ↔
      ∀ row < model.rowCount, index.position? = some row →
        (write (model.row (.place row))).Finite := by
  simp only [RowsFinite, rowCount_withConstraint]
  constructor
  · intro all row present addressed
    have written := all row present
    rw [row_withConstraint model index write writes present, if_pos addressed] at written
    exact written
  · intro changed row present
    rw [row_withConstraint model index write writes present]
    split
    · rename_i addressed
      exact changed row present addressed
    · exact finite row present

theorem RowsFinite.withNewConstraint (finite : model.RowsFinite)
    {expression : Expression Float}
    (written : (Row.ofExpression expression).Finite) (name : String) :
    (model.withNewConstraint expression name).RowsFinite := by
  intro row present
  rw [row_place present]
  simp only [Model.withNewConstraint, List.getElem_append]
  split
  · rename_i earlier
    rw [← row_place earlier]
    exact finite row earlier
  · simpa using written

/-- What is accepted leaves all rows finite, unless it spoils one. -/
theorem Accepts.rowsFinite_iff {change : Change Float} {write : Write Float}
    (accepts : model.Accepts change write) (rows : model.RowsInRange)
    (proper : change.Proper model) (finite : model.RowsFinite) :
    (write.onto model).RowsFinite ↔ ¬write.Spoils model := by
  cases accepts with
  | @addVariable given options =>
      have start : (model.withNewVariable options).RowsFinite := finite
      apply start.withEntries_iff
      -- All cells are of older variables, so the column starts from nothing.
      intro row _
      exact (rows.row (.place row)).coefficient_next
  | addConstraint =>
      have written := Row.finite_ofExpression proper.fromCaller.sound
      exact iff_of_true (finite.withNewConstraint written _) not_false
  | @setColumn index given entries =>
      have cleared := finite.withoutCells index
      have empty : ∀ row < (model.withoutCells index).rowCount,
          ((model.withoutCells index).row (.place row)).coefficient index = 0 := by
        intro row present
        rw [rowCount_withoutCells] at present
        rw [row_withoutCells index present, Row.coefficient_remove_self]
      have written := cleared.withEntries_iff empty entries
      simp only [Overflows, rowCount_withoutCells] at written
      exact written
  | @setRightHandSide index value =>
      refine (finite.withConstraint_iff
        (fun row => { row with constant := -value }) (fun _ => rfl)).trans ?_
      simp only [Write.Spoils, not_and, Bool.not_eq_false]
      constructor
      · rintro all ⟨row, present, addressed⟩
        have constant := (all row present addressed).constant
        rw [Double.isFinite_neg] at constant
        exact constant
      · intro value row present addressed
        refine ⟨(finite row present).cells, ?_⟩
        rw [Double.isFinite_neg]
        exact value ⟨row, present, addressed⟩
  | setExpression =>
      have written := Row.finite_ofExpression proper.fromCaller.sound
      refine iff_of_true ?_ not_false
      refine (finite.withConstraint_iff (fun _ => Row.ofExpression _)
        (fun _ => rfl)).mpr ?_
      exact fun _ _ _ => written
  | setName =>
      refine iff_of_true ?_ not_false
      simp only [Write.onto]
      split <;> exact finite
  | storeVariable | storeConstraint | storeObjective | storeDirection
  | storeLower | storeUpper | storeKind | storeObjectiveCoefficient
  | storeExpression => cases proper.asks
  | _ => exact iff_of_true finite not_false

end Writing

section Keeping

variable {change : Change Float} {write : Write Float}

namespace Related

theorem withConstraint (related : model.Related) (index : Index)
    (change : ConstraintRecord Float → ConstraintRecord Float)
    (kept : ∀ data, data.relation ≠ .affine → (change data).relation ≠ .affine) :
    (model.withConstraint index change).Related :=
  Index.forall_mem_modify kept related

theorem withEntries (related : model.Related) (index : Index)
    (entries : List (Participant × Float)) :
    (model.withEntries index entries).Related := by
  refine withEntries_keeps ?_ related entries
  intro model entry related
  apply related.withConstraint entry.1.index
  exact fun _ known => known

theorem withoutCells (related : model.Related) (index : Index) :
    (model.withoutCells index).Related := by
  intro data membership
  obtain ⟨old, present, rfl⟩ := List.mem_map.mp membership
  exact related old present

end Related

/-- What asks for a relation keeps all constraints related. -/
theorem Accepts.related (accepts : model.Accepts change write)
    (related : model.Related) (asking : change.asks = true) :
    (write.onto model).Related := by
  cases accepts with
  | @addVariable given options =>
      have start : (model.withNewVariable options).Related := related
      exact start.withEntries _ _
  | addConstraint given =>
      intro data membership
      rcases List.mem_append.mp membership with old | new
      · exact related data old
      · cases List.mem_singleton.mp new
        exact given
  | setColumn => exact (related.withoutCells _).withEntries _ _
  | setRightHandSide => exact related.withConstraint _ _ (fun _ known => known)
  | setExpression given => exact related.withConstraint _ _ (fun _ _ => given)
  | setName =>
      simp only [Write.onto]
      split <;> exact related
  | storeVariable | storeConstraint | storeObjective | storeDirection
  | storeLower | storeUpper | storeKind | storeObjectiveCoefficient
  | storeExpression => cases asking
  | _ => exact related

theorem Related.after (related : model.Related) (asking : change.asks = true) :
    (model.after change).Related := by
  apply holds_after related
  · intro write accepts
    exact accepts.related related asking
  · exact related

/-- Every way to write the objective checks its numbers. -/
theorem Accepts.costs (accepts : model.Accepts change write)
    (objective : model.ObjectiveInRange) (costs : model.objective.FiniteCells)
    (proper : change.Proper model) :
    (write.onto model).objective.FiniteCells := by
  cases accepts with
  | addVariable accepted =>
      have finite := (VariableOptions.readFrom_of_require accepted).finite
      exact costs.insert objective.cells.coefficient_next finite
  | @setObjective given expression summed =>
      have givenSound : given.Sound (fun _ => True) :=
        Expression.value_sound (fun _ _ => trivial)
          (fun number other same => (proper.fromCaller number other same).sound)
      have sound : expression.Sound (fun _ => True) := by
        apply Expression.sum_sound _ summed
        intro value membership
        cases List.mem_singleton.mp membership
        exact givenSound
      exact Row.finiteCells_ofExpression sound
  | setObjectiveCoefficient accepted =>
      apply (costs.remove _).insert (Row.coefficient_remove_self _ _)
      exact Reader.finite_of_require accepted
  | setName =>
      simp only [Write.onto]
      split <;> exact costs
  | storeVariable | storeConstraint | storeObjective | storeDirection
  | storeLower | storeUpper | storeKind | storeObjectiveCoefficient
  | storeExpression => cases proper.asks
  | _ => exact costs

theorem Orderly.after (orderly : model.Orderly) (proper : change.Proper model) :
    (model.after change).Orderly where
  paired := orderly.paired.after (Change.registers_of_asks proper.asks)
  rows := orderly.rows.after proper.inRange
  objective := orderly.objective.after proper.asks proper.objectiveInRange
  costs := by
    refine @holds_after _ _ model change
      (fun model => model.objective.FiniteCells) orderly.costs ?_ orderly.costs
    · intro write accepts
      exact accepts.costs orderly.objective orderly.costs proper
  related := orderly.related.after proper.asks

theorem RowsFinite.after (finite : model.RowsFinite) (rows : model.RowsInRange)
    (proper : change.Proper model) (unspoilt : ¬model.Spoils change) :
    (model.after change).RowsFinite := by
  apply holds_after finite
  · intro write accepts
    apply (accepts.rowsFinite_iff rows proper finite).mpr
    exact fun spoils => unspoilt ⟨write, accepts, spoils⟩
  · exact finite

theorem Spoils.not_rowsFinite (spoils : model.Spoils change)
    (rows : model.RowsInRange) (proper : change.Proper model)
    (finite : model.RowsFinite) : ¬(model.after change).RowsFinite := by
  obtain ⟨write, accepts, spoils⟩ := spoils
  rw [after_of_ok (apply_of_accepts accepts),
    accepts.rowsFinite_iff rows proper finite]
  exact not_not_intro spoils

end Keeping

section Runs

variable {reference : ModelRef} {direction : Direction}
  {changes : List (Change Float)}

theorem orderly_new (reference : ModelRef) (direction : Direction) :
    (new reference direction : Model Float).Orderly where
  paired := paired_new reference direction
  rows := nofun
  objective := ⟨Row.over_iff.mpr (Row.within_empty 0 _), LawfulScalar.isFinite_zero⟩
  costs := nofun
  related := nofun

theorem orderly_reached
    (proper : Throughout reference direction changes
      (fun model change => change.Proper model)) :
    (reached reference direction changes).Orderly := by
  apply proper.invariant
  · intro model change known orderly
    exact orderly.after known
  · exact orderly_new reference direction

theorem rowsFinite_reached
    (proper : Throughout reference direction changes
      (fun model change => change.Proper model))
    (unspoilt : Throughout reference direction changes
      (fun model change => ¬model.Spoils change)) :
    (reached reference direction changes).RowsFinite := by
  have kept : ∀ (model : Model Float) (change : Change Float),
      change.Proper model ∧ ¬model.Spoils change →
      model.Orderly ∧ model.RowsFinite →
      (model.after change).Orderly ∧ (model.after change).RowsFinite := by
    intro model change known holds
    obtain ⟨orderly, finite⟩ := holds
    exact ⟨orderly.after known.1, finite.after orderly.rows known.1 known.2⟩
  have start := orderly_new reference direction
  exact ((proper.and unspoilt).invariant kept ⟨start, nofun⟩).2

/-- In a run of proper changes, the objective can be read all the time, and all
the rest can be read exactly if all that is stored is finite.  So a model can be
read all the time exactly if no row is ever spoiled: by a column whose amounts
for one constraint overflow, or by a right hand side that is not finite. -/
theorem readable_always_iff
    (proper : Throughout reference direction changes
      (fun model change => change.Proper model)) :
    Always reference direction changes (fun model =>
        (∃ read, model.objectiveExpression = .ok read) ∧
          (model.Readable ↔ model.StoresFinite)) ∧
      (Always reference direction changes Readable ↔
        Throughout reference direction changes
          (fun model change => ¬model.Spoils change)) := by
  have orderly : Always reference direction changes Orderly := by
    rintro earlier later rfl
    exact orderly_reached proper.of_append
  refine ⟨?_, ?_, ?_⟩
  · intro earlier later split
    have known := orderly earlier later split
    exact ⟨known.exists_objective, known.readable_iff⟩
  · intro always earlier change later split spoils
    have known := orderly earlier (change :: later) split
    have finite := (always earlier (change :: later) split).rowsFinite known.rows
    have next : changes = (earlier ++ [change]) ++ later := by simp [split]
    have knownAfter := orderly (earlier ++ [change]) later next
    have finiteAfter :=
      (always (earlier ++ [change]) later next).rowsFinite knownAfter.rows
    rw [reached_concat] at finiteAfter
    exact spoils.not_rowsFinite known.rows (proper earlier change later split)
      finite finiteAfter
  · intro unspoilt earlier later split
    have known := orderly earlier later split
    subst split
    rw [known.readable_iff, storesFinite_iff known.costs]
    exact rowsFinite_reached proper.of_append unspoilt.of_append

end Runs

section Examples

private def sideVariable : Variable := { model := ⟨0, "m"⟩, index := .place 0 }

private def sideConstraint : Participant :=
  Constraint.participant { model := ⟨0, "m"⟩, index := .place 0 }

/-- The variable is at most one. -/
private def sideExpression : Expression Float where
  terms := ⟨[(.place 0, ⟨sideVariable.participant, 1⟩)], by simp⟩
  constant := -1
  relation := .atMost

private theorem sideExpression_reachable :
    Expression.Reachable (fun _ => True) sideExpression := by
  have built : Expression.build (fun _ => .ok 0)
      (.list ([sideVariable].map .handle) 0) (.list [.number 1] 0)
      (.number (-1)) (.text "<") = .ok sideExpression := by
    rfl
  exact .built (fun _ _ => trivial) built

private def sided : List (Change Float) :=
  [.addVariable .missing, .addConstraint sideExpression ""]

/-- The variable gets a column that names the constraint twice. -/
private def doubling (amount : Float)
    (finite : Scalar.isFinite amount = true) : Change Float :=
  .setColumn (.place 0) (.column 0
    ⟨[(sideConstraint, amount), (sideConstraint, amount)], by simp [finite]⟩)

private def halved : Change Float := doubling 0.5 (by decide)

private def overflowing : Change Float := doubling 1e308 (by decide +kernel)

private def unbounding : Change Float :=
  .setRightHandSide (.place 0) Scalar.infinity

private theorem sided_proper (last : Change Float) (asks : last.asks = true)
    (fromCaller : last.FromCaller)
    (inRange : last.InRange (reached ⟨0, "m"⟩ .minimize sided))
    (objectiveInRange :
      last.ObjectiveInRange (reached ⟨0, "m"⟩ .minimize sided)) :
    Throughout ⟨0, "m"⟩ .minimize (sided ++ [last])
      (fun model change => change.Proper model) := by
  refine throughout_concat.mpr ⟨?_, asks, fromCaller, inRange, objectiveInRange⟩
  intro earlier change later split
  rcases earlier with _ | ⟨first, _ | ⟨second, earlier⟩⟩
  · cases split
    exact ⟨rfl, trivial, trivial, trivial⟩
  · cases split
    refine ⟨rfl, sideExpression_reachable, ?_, trivial⟩
    simp only [Change.InRange, HasVariable]
    decide +kernel
  · simp [sided] at split

private theorem doubling_proper (amount : Float)
    (finite : Scalar.isFinite amount = true) :
    Throughout ⟨0, "m"⟩ .minimize (sided ++ [doubling amount finite])
      (fun model change => change.Proper model) :=
  sided_proper _ rfl trivial ⟨0, by decide, rfl⟩ trivial

/-- Two halves add up to one, so the model can be read all the time. -/
theorem readable_halved :
    Always ⟨0, "m"⟩ .minimize (sided ++ [halved]) Readable := by
  apply (readable_always_iff (doubling_proper 0.5 (by decide))).2.mpr
  refine throughout_concat.mpr ⟨?_, ?_⟩
  · rintro earlier change later split ⟨write, accepts, spoils⟩
    rcases earlier with _ | ⟨first, _ | ⟨second, earlier⟩⟩
    · cases split
      cases accepts
      obtain ⟨row, present, _⟩ := spoils
      cases present
    · cases split
      cases accepts
      exact spoils
    · simp [sided] at split
  · rintro ⟨write, accepts, spoils⟩
    cases accepts with
    | setColumn accepted listed =>
        cases accepted
        obtain ⟨row, present, infinite⟩ := spoils
        have only : row = 0 := Nat.lt_one_iff.mp present
        subst only
        revert infinite
        decide +kernel

/-- Twice a finite number can be too large, and a right hand side can be infinite.
Either is accepted, and the constraint can not be read any more. -/
theorem not_readable_spoiled :
    (Throughout ⟨0, "m"⟩ .minimize (sided ++ [overflowing])
        (fun model change => change.Proper model) ∧
      ¬(reached ⟨0, "m"⟩ .minimize (sided ++ [overflowing])).Readable) ∧
    (Throughout ⟨0, "m"⟩ .minimize (sided ++ [unbounding])
        (fun model change => change.Proper model) ∧
      ¬(reached ⟨0, "m"⟩ .minimize (sided ++ [unbounding])).Readable) := by
  refine ⟨⟨doubling_proper 1e308 (by decide +kernel), ?_⟩,
    ⟨sided_proper _ rfl trivial trivial trivial, ?_⟩⟩
  · intro readable
    obtain ⟨read, success⟩ := readable.expressions 0 (by decide +kernel)
    have failed : ((reached ⟨0, "m"⟩ .minimize
        (sided ++ [overflowing])).constraintExpression (.place 0)).isOk = false := by
      decide +kernel
    rw [success] at failed
    cases failed
  · intro readable
    obtain ⟨read, success⟩ := readable.expressions 0 (by decide +kernel)
    have failed : ((reached ⟨0, "m"⟩ .minimize
        (sided ++ [unbounding])).constraintExpression (.place 0)).isOk = false := by
      decide +kernel
    rw [success] at failed
    cases failed

end Examples

end Model

end LinearProgram
