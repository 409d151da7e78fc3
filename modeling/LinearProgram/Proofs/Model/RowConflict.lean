import LinearProgram.Proofs.Model.ExtremeActivity

/-!
# Constraints that exclude two assignments

Over exact numbers, a constraint excludes two assignments exactly if no values
of the other variables within their bounds satisfy it while the two hold.  The
values that satisfy a relation form an interval, and so do the activities, so
the question is whether two intervals meet.
-/

namespace LinearProgram

/-- A relation between two numbers is missed by no more than a slack. -/
def Relation.HoldsWithin (slack left right : Rat) : Relation → Prop
  | affine => True
  | equal => right - slack ≤ left ∧ left ≤ right + slack
  | atMost => left ≤ right + slack
  | atLeast => right - slack ≤ left

/-- The least number that is related to a right hand side. -/
private def least (right : Rat) : Relation → Exact
  | .affine | .atMost => .infinite true
  | .equal | .atLeast => .finite (right - 1e-9)

/-- The greatest number that is related to a right hand side. -/
private def greatest (right : Rat) : Relation → Exact
  | .affine | .atLeast => .infinite false
  | .equal | .atMost => .finite (right + 1e-9)

private theorem bounds_related (right : Rat) (relation : Relation) :
    Exact.Bounds (least right relation) (greatest right relation) := by
  cases relation with
  | affine => exact ⟨.unbounded, .unbounded, rfl⟩
  | atMost => exact ⟨.unbounded, .finite _, rfl⟩
  | atLeast => exact ⟨.finite _, .unbounded, rfl⟩
  | equal =>
      refine ⟨.finite _, .finite _, ?_⟩
      simp only [least, greatest, Exact.finite_le_finite]
      linarith

private theorem between_related_iff (left right : Rat) (relation : Relation) :
    Exact.Between (least right relation) (greatest right relation) left ↔
      relation.HoldsWithin 1e-9 left right := by
  cases relation <;>
    simp [Exact.Between, least, greatest, Relation.HoldsWithin]

namespace Model

private theorem unreachable_eq {lower upper : Exact}
    (bounds : Exact.Bounds lower upper) (relation : Relation) (right : Rat) :
    unreachable relation lower upper (.finite right) = true ↔
      greatest right relation < lower ∨ upper < least right relation := by
  have atTop : ¬Exact.infinite false < lower := by
    cases bounds.isLower <;> exact nofun
  have atBottom : ¬upper < Exact.infinite true := by
    cases bounds.isUpper <;> exact nofun
  have slack : (Scalar.tolerance : Exact) = .finite 1e-9 := rfl
  cases relation <;>
    simp [unreachable, least, greatest, slack, atTop, atBottom]

/-- A relation fails between two bounds exactly if it holds of no rational
between them, be it only up to the tolerance. -/
theorem unreachable_iff {lower upper : Exact} (bounds : Exact.Bounds lower upper)
    (relation : Relation) (right : Rat) :
    unreachable relation lower upper (.finite right) = true ↔
      ¬∃ value, Exact.Between lower upper value ∧
        relation.HoldsWithin 1e-9 value right := by
  have related := bounds_related right relation
  have meet := Exact.meet_iff bounds related
  simp only [between_related_iff] at meet
  rw [unreachable_eq bounds, meet, not_and_or,
    ← Exact.not_upper_lt_lower_iff related.isUpper bounds.isLower,
    ← Exact.not_upper_lt_lower_iff bounds.isUpper related.isLower,
    not_not, not_not]

/-- A point at which two assignments hold, the other variables of a constraint
are within their bounds, and the constraint is satisfied up to the tolerance. -/
structure Realizes (model : Model Exact) (data : ConstraintRecord Exact)
    (first second : Assignment) (point : Index → Rat) : Prop where
  holdsFirst : point first.index = if first.positive then 1 else 0
  holdsSecond : point second.index = if second.positive then 1 else 0
  inside : ∀ cell ∈ data.row.cells.toList, cell.1 ≠ first.index →
    cell.1 ≠ second.index →
      Exact.Between (model.bounds cell.1).1 (model.bounds cell.1).2
        (point cell.1)
  satisfied : data.relation.HoldsWithin 1e-9
    (cellActivity point data.row.cells.toList) (-data.row.constant.toRat)

section Excluding

variable {model : Model Exact} {data : ConstraintRecord Exact}
  {first second : Assignment}

private theorem value_toRat (assignment : Assignment) :
    (assignment.value : Exact) =
      .finite (if assignment.positive then 1 else 0) := by
  simp only [Assignment.value]
  split <;> rfl

private theorem coefficient_finite {row : Row Exact}
    (finite : ∀ cell ∈ row.cells.toList, Scalar.isFinite cell.2 = true)
    (index : Index) : ∃ factor : Rat, row.coefficient index = .finite factor := by
  simp only [Row.coefficient]
  cases found : row.cells.get? index with
  | none => exact ⟨0, rfl⟩
  | some coefficient =>
      have membership := OrderedMap.get?_eq_some_iff.mp found
      cases coefficient with
      | finite factor => exact ⟨factor, rfl⟩
      | infinite negative => cases finite _ membership
      | undefined => cases finite _ membership

private theorem freeCells_eq (row : Row Exact) :
    freeCells row first second = OrderedMap.discard first.index
      (OrderedMap.discard second.index row.cells.toList) := by
  simp [freeCells, OrderedMap.discard, List.filter_filter]

/-- The activity of a row is that of the two fixed variables and of the free
cells. -/
private theorem activity_split {row : Row Exact} {point : Index → Rat}
    (different : first.index ≠ second.index) :
    cellActivity point row.cells.toList =
      (row.coefficient first.index).toRat * point first.index +
        (row.coefficient second.index).toRat * point second.index +
        cellActivity point (freeCells row first second) := by
  have distinct : ((OrderedMap.discard second.index row.cells.toList).map
      Prod.fst).Nodup := OrderedMap.nodup_discard row.cells.distinct
  rw [cellActivity_discard point second.index row.cells.distinct,
    cellActivity_discard point first.index distinct,
    OrderedMap.find_discard, if_neg different, ← freeCells_eq]
  simp only [Row.coefficient, OrderedMap.get?]
  ring

/-- What two assignments contribute to a row. -/
private def fixedShare (row : Row Exact) (first second : Assignment) : Rat :=
  (row.coefficient first.index).toRat * (if first.positive then 1 else 0) +
    (row.coefficient second.index).toRat * (if second.positive then 1 else 0)

private theorem fixedActivity_eq {row : Row Exact}
    (finite : ∀ cell ∈ row.cells.toList, Scalar.isFinite cell.2 = true) :
    fixedActivity row first second = .finite (fixedShare row first second) := by
  obtain ⟨firstFactor, firstEq⟩ := coefficient_finite finite first.index
  obtain ⟨secondFactor, secondEq⟩ := coefficient_finite finite second.index
  simp only [fixedActivity, fixedShare, firstEq, secondEq, value_toRat]
  rfl

private theorem between_finite_iff (start value : Rat) :
    Exact.Between (.finite start) (.finite start) value ↔ value = start := by
  simp only [Exact.Between, Exact.finite_le_finite]
  exact ⟨fun bounds => le_antisymm bounds.2 bounds.1,
    fun same => ⟨same.ge, same.le⟩⟩

private theorem mem_freeCells {row : Row Exact} {cell : Index × Exact} :
    cell ∈ freeCells row first second ↔
      cell ∈ row.cells.toList ∧ cell.1 ≠ first.index ∧
        cell.1 ≠ second.index := by
  simp [freeCells]

/-- Two different assignments can be completed to a point. -/
private def completed (first second : Assignment) (point : Index → Rat) :
    Index → Rat :=
  Function.update
    (Function.update point second.index (if second.positive then 1 else 0))
    first.index (if first.positive then 1 else 0)

private theorem completed_free {point : Index → Rat} {index : Index}
    (notFirst : index ≠ first.index) (notSecond : index ≠ second.index) :
    completed first second point index = point index := by
  rw [completed, Function.update_of_ne notFirst, Function.update_of_ne notSecond]

/-- The activities between the extremes are those of the points at which the
assignments hold and the free variables are within their bounds. -/
private theorem between_activities_iff (different : first.index ≠ second.index)
    {row : Row Exact}
    (finite : ∀ cell ∈ row.cells.toList, Scalar.isFinite cell.2 = true)
    (bounded : ∀ cell ∈ freeCells row first second, model.Bounded cell)
    (value : Rat) :
    Exact.Between (model.leastActivity row first second)
        (model.greatestActivity row first second) value ↔
      ∃ point : Index → Rat,
        point first.index = (if first.positive then 1 else 0) ∧
        point second.index = (if second.positive then 1 else 0) ∧
        model.Inside (freeCells row first second) point ∧
        cellActivity point row.cells.toList = value := by
  have distinct : ((freeCells row first second).map Prod.fst).Nodup := by
    rw [freeCells_eq]
    exact OrderedMap.nodup_discard (OrderedMap.nodup_discard row.cells.distinct)
  have start : Exact.Bounds (.finite (fixedShare row first second))
      (.finite (fixedShare row first second)) :=
    ⟨.finite _, .finite _, by simp⟩
  simp only [leastActivity, greatestActivity, fixedActivity_eq finite]
  rw [between_totals_iff distinct bounded start]
  simp only [between_finite_iff]
  constructor
  · rintro ⟨_, point, rfl, inside, rfl⟩
    have holdsFirst : completed first second point first.index =
        if first.positive then 1 else 0 := by
      rw [completed, Function.update_self]
    have holdsSecond : completed first second point second.index =
        if second.positive then 1 else 0 := by
      rw [completed, Function.update_of_ne different.symm, Function.update_self]
    have free : ∀ cell ∈ freeCells row first second,
        completed first second point cell.1 = point cell.1 := by
      intro cell membership
      obtain ⟨_, notFirst, notSecond⟩ := mem_freeCells.mp membership
      exact completed_free notFirst notSecond
    refine ⟨completed first second point, holdsFirst, holdsSecond, ?_, ?_⟩
    · intro cell membership
      rw [free cell membership]
      exact inside cell membership
    · rw [activity_split different, holdsFirst, holdsSecond,
        cellActivity_congr free, fixedShare]
  · rintro ⟨point, holdsFirst, holdsSecond, inside, rfl⟩
    refine ⟨_, point, rfl, inside, ?_⟩
    rw [activity_split different, holdsFirst, holdsSecond, fixedShare]

private theorem bounds_activities {row : Row Exact}
    (finite : ∀ cell ∈ row.cells.toList, Scalar.isFinite cell.2 = true)
    (bounded : ∀ cell ∈ freeCells row first second, model.Bounded cell) :
    Exact.Bounds (model.leastActivity row first second)
      (model.greatestActivity row first second) := by
  simp only [leastActivity, greatestActivity, fixedActivity_eq finite]
  exact bounds_totals bounded ⟨.finite _, .finite _, by simp⟩

private theorem beq_zero_iff (factor : Rat) :
    (Exact.finite factor == 0) = true ↔ factor = 0 := by
  change decide (factor = 0) = true ↔ _
  exact decide_eq_true_iff

/-- A constraint excludes two assignments exactly if both variables occur in it
and no point realizes it together with them. -/
theorem excludes_iff (different : first.index ≠ second.index)
    (finite : ∀ cell ∈ data.row.cells.toList, Scalar.isFinite cell.2 = true)
    (bounded : ∀ cell ∈ freeCells data.row first second, model.Bounded cell)
    (finiteSide : Scalar.isFinite data.row.constant = true) :
    model.excludes data first second = true ↔
      (data.row.coefficient first.index).toRat ≠ 0 ∧
        (data.row.coefficient second.index).toRat ≠ 0 ∧
        ¬∃ point, model.Realizes data first second point := by
  obtain ⟨firstFactor, firstEq⟩ := coefficient_finite finite first.index
  obtain ⟨secondFactor, secondEq⟩ := coefficient_finite finite second.index
  have side : -data.row.constant = .finite (-data.row.constant.toRat) := by
    cases constant : data.row.constant with
    | finite value => rfl
    | infinite negative => rw [constant] at finiteSide; cases finiteSide
    | undefined => rw [constant] at finiteSide; cases finiteSide
  have realized : (∃ point, model.Realizes data first second point) ↔
      ∃ value, Exact.Between (model.leastActivity data.row first second)
          (model.greatestActivity data.row first second) value ∧
        data.relation.HoldsWithin 1e-9 value (-data.row.constant.toRat) := by
    simp only [between_activities_iff different finite bounded]
    constructor
    · rintro ⟨point, holdsFirst, holdsSecond, inside, satisfied⟩
      refine ⟨_, ⟨point, holdsFirst, holdsSecond, ?_, rfl⟩, satisfied⟩
      intro cell membership
      obtain ⟨present, notFirst, notSecond⟩ := mem_freeCells.mp membership
      exact inside cell present notFirst notSecond
    · rintro ⟨_, ⟨point, holdsFirst, holdsSecond, inside, rfl⟩, satisfied⟩
      refine ⟨point, holdsFirst, holdsSecond, ?_, satisfied⟩
      intro cell present notFirst notSecond
      exact inside cell (mem_freeCells.mpr ⟨present, notFirst, notSecond⟩)
  have reached := unreachable_iff (bounds_activities finite bounded)
    data.relation (-data.row.constant.toRat)
  rw [realized, ← reached, firstEq, secondEq]
  simp only [excludes, firstEq, secondEq, side]
  change _ ↔ firstFactor ≠ 0 ∧ secondFactor ≠ 0 ∧ _
  by_cases missing : firstFactor = 0 ∨ secondFactor = 0
  · have absent : (Exact.finite firstFactor == 0 ||
        Exact.finite secondFactor == 0) = true := by
      rw [Bool.or_eq_true, beq_zero_iff, beq_zero_iff]
      exact missing
    rw [if_pos absent]
    constructor
    · exact nofun
    · rintro ⟨firstNonzero, secondNonzero, _⟩
      rcases missing with firstZero | secondZero
      · exact absurd firstZero firstNonzero
      · exact absurd secondZero secondNonzero
  · have present : ¬(Exact.finite firstFactor == 0 ||
        Exact.finite secondFactor == 0) = true := by
      rw [Bool.or_eq_true, beq_zero_iff, beq_zero_iff]
      exact missing
    rw [if_neg present]
    rw [not_or] at missing
    constructor
    · intro unreachable
      exact ⟨missing.1, missing.2, unreachable⟩
    · rintro ⟨_, _, unreachable⟩
      exact unreachable

end Excluding

end Model

end LinearProgram
