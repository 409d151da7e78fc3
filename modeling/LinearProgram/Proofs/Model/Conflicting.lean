import LinearProgram.Proofs.Model.ConflictHistory
import LinearProgram.Proofs.Model.ExactReading

/-!
# Conflicts are exact

As long as callers only use variables that are in the table, and if nothing is
rounded, two assignments of different variables are in conflict exactly if they
were recorded as excluding each other, or no values of the other variables
satisfy some constraint in which both occur.
-/

namespace LinearProgram.Model

/-- The change records that two assignments exclude each other, in one order or
the other, and the model accepts. -/
def Records {α : Type} [Scalar α] (first second : Assignment) (model : Model α)
    (change : Change α) : Prop :=
  ∃ one other, change = .addConflict one other ∧ model.Succeeds change ∧
    ((one.assignment = first ∧ other.assignment = second) ∨
      (one.assignment = second ∧ other.assignment = first))

section Recorded

variable {α : Type} [Scalar α] {reference : ModelRef} {direction : Direction}
  {changes : List (Change α)} {first second : Assignment}

theorem HasVariable.placed {model : Model α} {assignment : Assignment}
    (present : model.HasVariable assignment.index) : assignment.Placed := by
  obtain ⟨position, _, place⟩ := present
  exact ⟨position, place⟩

/-- A pair that was recorded stays recorded, in either order. -/
theorem recorded_of_occurs
    (occurs : Occurs reference direction changes (Records first second)) :
    (reached reference direction changes).recorded first second = true := by
  obtain ⟨earlier, change, later, split, one, other, rfl, success, pairs⟩ :=
    occurs
  have keys : one.assignment.pairKey α other.assignment =
      first.pairKey α second := by
    rcases pairs with ⟨rfl, rfl⟩ | ⟨rfl, rfl⟩
    · rfl
    · exact Assignment.pairKey_comm _ _
  rw [recorded, List.contains_iff_mem, mem_conflicts_reached_iff]
  exact ⟨earlier, _, later, split, one, other, rfl, success, keys⟩

/-- A pair that is recorded was recorded in the course of the run. -/
theorem recorded_iff
    (inRange : Throughout reference direction changes
      (fun model change => change.InRange model))
    (firstPlaced : first.Placed) (secondPlaced : second.Placed) :
    (reached reference direction changes).recorded first second = true ↔
      Occurs reference direction changes (Records first second) := by
  constructor
  · intro present
    rw [recorded, List.contains_iff_mem, mem_conflicts_reached_iff] at present
    obtain ⟨earlier, change, later, split, one, other, rfl, success, keys⟩ :=
      present
    have present := inRange earlier _ later split
    have pairs := (Assignment.pairKey_eq_iff present.1.placed present.2.placed
      firstPlaced secondPlaced).mp keys
    exact ⟨earlier, _, later, split, one, other, rfl, success, pairs⟩
  · exact recorded_of_occurs

end Recorded

/-- In a run over variables that are in the table, two assignments of different
variables are in conflict exactly if they were recorded, or some constraint on
both has no point that realizes it together with them. -/
theorem conflicting_iff {reference : ModelRef} {direction : Direction}
    {changes : List (Change Float)} {first second : Assignment}
    (inRange : Throughout reference direction changes
      (fun model change => change.InRange model))
    (boxed : (reached reference direction changes).exact.Boxed)
    (finite : (reached reference direction changes).exact.FiniteRows)
    (firstPresent :
      (reached reference direction changes).HasVariable first.index)
    (secondPresent :
      (reached reference direction changes).HasVariable second.index)
    (different : first.index ≠ second.index) :
    (reached reference direction changes).exact.conflicting first second =
        true ↔
      Occurs reference direction changes (Records first second) ∨
        ∃ data ∈ (reached reference direction changes).exact.constraintTable,
          (data.row.coefficient first.index).toRat ≠ 0 ∧
            (data.row.coefficient second.index).toRat ≠ 0 ∧
            ¬∃ point, (reached reference direction changes).exact.Realizes data
              first second point := by
  have rows := rowsInRange_reached inRange
  have apart : ¬first.index.same second.index = true := by
    intro same
    exact different (Index.same_iff.mp same).1
  have excluding : ∀ data ∈
      (reached reference direction changes).exact.constraintTable,
      ((reached reference direction changes).exact.excludes data first second =
          true ↔
        (data.row.coefficient first.index).toRat ≠ 0 ∧
          (data.row.coefficient second.index).toRat ≠ 0 ∧
          ¬∃ point, (reached reference direction changes).exact.Realizes data
            first second point) := by
    intro data membership
    apply excludes_iff different (finite data membership).1
    · intro cell free
      have present : cell ∈ data.row.cells.toList := (List.mem_filter.mp free).1
      exact boxed.bounded rows finite membership present
    · exact (finite data membership).2
  rw [conflicting, if_neg apart, Bool.or_eq_true, List.any_eq_true,
    recorded_exact firstPresent.placed secondPresent.placed,
    recorded_iff inRange firstPresent.placed secondPresent.placed]
  apply or_congr_right
  constructor
  · intro excluded
    obtain ⟨data, membership, excludes⟩ := excluded
    exact ⟨data, membership, (excluding data membership).mp excludes⟩
  · intro unrealized
    obtain ⟨data, membership, parts⟩ := unrealized
    exact ⟨data, membership, (excluding data membership).mpr parts⟩

section Packed

private def packedVariable (position : Nat) : Variable :=
  { model := ⟨0, "m"⟩, index := .place position }

/-- Two variables whose sum is at most one. -/
private def packedExpression : Expression Float where
  terms := ⟨[(.place 0, ⟨(packedVariable 0).participant, 1⟩),
    (.place 1, ⟨(packedVariable 1).participant, 1⟩)], by simp⟩
  constant := -1
  relation := .atMost

private def packedColumns : List (Change Float) :=
  List.replicate 2 (.addVariable .missing)

private def packing : List (Change Float) :=
  packedColumns ++ [.storeConstraint packedExpression "packed"]

private theorem packed_constraintTable :
    (reached ⟨0, "m"⟩ .minimize packing).exact.constraintTable =
      [⟨"packed", ⟨.finite (-1), ⟨[(.place 0, .finite 1),
        (.place 1, .finite 1)], by simp⟩⟩, .atMost⟩] := by
  decide +kernel

private theorem packed_inRange :
    Throughout ⟨0, "m"⟩ .minimize packing
      (fun model change => change.InRange model) := by
  refine throughout_concat.mpr ⟨throughout_of_forall ?_, ?_⟩
  · intro model change membership
    rw [List.eq_of_mem_replicate membership]
    trivial
  intro term membership
  have count : (reached ⟨0, "m"⟩ .minimize packedColumns).columnCount = 2 := rfl
  have terms : term.participant.index = .place 0 ∨
      term.participant.index = .place 1 := by
    rcases List.mem_cons.mp membership with rfl | last
    · exact .inl rfl
    · cases List.mem_singleton.mp last
      exact .inr rfl
  simp only [HasVariable]
  rcases terms with zero | one
  · exact ⟨0, by rw [count]; decide, zero⟩
  · exact ⟨1, by rw [count]; decide, one⟩

private theorem packed_boxed :
    (reached ⟨0, "m"⟩ .minimize packing).exact.Boxed := by
  intro data membership
  have bounds : (data.lower, data.upper) ∈
      (reached ⟨0, "m"⟩ .minimize packing).exact.variableTable.map
        (fun data => (data.lower, data.upper)) := List.mem_map_of_mem membership
  have table : (reached ⟨0, "m"⟩ .minimize packing).exact.variableTable.map
      (fun data => (data.lower, data.upper)) =
        List.replicate 2 (.finite 0, .infinite false) := by
    decide +kernel
  rw [table] at bounds
  obtain ⟨lower, upper⟩ := Prod.mk.inj (List.eq_of_mem_replicate bounds)
  rw [lower, upper]
  decide

private theorem packed_finite :
    (reached ⟨0, "m"⟩ .minimize packing).exact.FiniteRows := by
  intro data membership
  rw [packed_constraintTable, List.mem_singleton] at membership
  subst membership
  decide

/-- Two variables whose sum is at most one can not both be one. -/
theorem conflicting_packed :
    (reached ⟨0, "m"⟩ .minimize packing).exact.conflicting
      ⟨true, .place 0⟩ ⟨true, .place 1⟩ = true := by
  have zero : (reached ⟨0, "m"⟩ .minimize packing).HasVariable (.place 0) :=
    ⟨0, by decide, rfl⟩
  have one : (reached ⟨0, "m"⟩ .minimize packing).HasVariable (.place 1) :=
    ⟨1, by decide, rfl⟩
  have different : Index.place 0 ≠ .place 1 := by decide
  apply (conflicting_iff packed_inRange packed_boxed packed_finite zero one
    different).mpr
  right
  rw [packed_constraintTable]
  refine ⟨_, List.mem_singleton_self _, by decide, by decide, ?_⟩
  intro realized
  obtain ⟨point, first, second, _, satisfied⟩ := realized
  simp only [Relation.HoldsWithin, cellActivity_cons, cellActivity_nil, first,
    second] at satisfied
  norm_num [Exact.toRat, Scalar.rational?] at satisfied

end Packed

end LinearProgram.Model
