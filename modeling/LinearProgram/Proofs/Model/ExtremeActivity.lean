import LinearProgram.Model.Conflict
import LinearProgram.Proofs.OrderedMap
import LinearProgram.Proofs.Scalar.Intervals
import Mathlib.Algebra.BigOperators.Group.List.Basic
import Mathlib.Logic.Function.Basic
import Mathlib.Tactic.Ring

/-!
# Extreme activities

The least and the greatest activity of a row are the bounds of all activities
that the row can have while its free variables stay within their bounds.  Every
activity between them is one for some values of the variables: cell by cell, a
share of the activity is moved to the variable of the cell.
-/

namespace LinearProgram

/-- The activity of cells where the variables have these values. -/
def cellActivity (point : Index → Rat) (cells : List (Index × Exact)) : Rat :=
  (cells.map (fun cell => cell.2.toRat * point cell.1)).sum

@[simp]
theorem cellActivity_nil (point : Index → Rat) : cellActivity point [] = 0 := rfl

@[simp]
theorem cellActivity_cons (point : Index → Rat) (cell : Index × Exact)
    (rest : List (Index × Exact)) :
    cellActivity point (cell :: rest) =
      cell.2.toRat * point cell.1 + cellActivity point rest := rfl

theorem cellActivity_congr {point other : Index → Rat}
    {cells : List (Index × Exact)}
    (same : ∀ cell ∈ cells, point cell.1 = other cell.1) :
    cellActivity point cells = cellActivity other cells := by
  simp only [cellActivity]
  congr 1
  apply List.map_congr_left
  intro cell membership
  rw [same cell membership]

/-- The share of one variable, and what is left of the activity. -/
theorem cellActivity_discard (point : Index → Rat) (key : Index)
    {cells : List (Index × Exact)} (distinct : (cells.map Prod.fst).Nodup) :
    cellActivity point cells =
      ((OrderedMap.find key cells).getD 0).toRat * point key +
        cellActivity point (OrderedMap.discard key cells) := by
  induction cells with
  | nil =>
      change (0 : Rat) = 0 * point key + 0
      ring
  | cons cell rest induction =>
      obtain ⟨label, coefficient⟩ := cell
      rw [List.map_cons, List.nodup_cons] at distinct
      by_cases same : label = key
      · subst same
        have absent : OrderedMap.find label rest = none :=
          OrderedMap.find_eq_none_iff.mpr distinct.1
        have dropped : OrderedMap.discard label ((label, coefficient) :: rest) =
            OrderedMap.discard label rest := by
          simp [OrderedMap.discard]
        have remaining := induction distinct.2
        rw [absent] at remaining
        rw [dropped, cellActivity_cons, remaining]
        simp only [OrderedMap.find, if_true, Option.getD_some, Option.getD_none]
        change _ + ((0 : Rat) * point label + _) = _
        ring
      · have kept : OrderedMap.discard key ((label, coefficient) :: rest) =
            (label, coefficient) :: OrderedMap.discard key rest := by
          simp [OrderedMap.discard, same]
        rw [kept, cellActivity_cons, cellActivity_cons, induction distinct.2]
        simp only [OrderedMap.find, if_neg same]
        ring

namespace Model

variable {model : Model Exact}

/-- A cell that counts, of a variable whose bounds leave it some value. -/
structure Bounded (model : Model Exact) (cell : Index × Exact) : Prop where
  coefficient : ∃ factor : Rat, factor ≠ 0 ∧ cell.2 = .finite factor
  bounds : Exact.Bounds (model.bounds cell.1).1 (model.bounds cell.1).2

/-- A point at which the variables of cells are within their bounds. -/
def Inside (model : Model Exact) (cells : List (Index × Exact))
    (point : Index → Rat) : Prop :=
  ∀ cell ∈ cells, Exact.Between (model.bounds cell.1).1 (model.bounds cell.1).2
    (point cell.1)

private theorem inside_update {cells : List (Index × Exact)}
    {point : Index → Rat} {key : Index} {value : Rat}
    (absent : key ∉ cells.map Prod.fst) (inside : model.Inside cells point) :
    model.Inside cells (Function.update point key value) := by
  intro cell membership
  have different : cell.1 ≠ key := by
    rintro rfl
    exact absent (List.mem_map_of_mem membership)
  rw [Function.update_of_ne different]
  exact inside cell membership

private theorem cellActivity_update {cells : List (Index × Exact)}
    {point : Index → Rat} {key : Index} {value : Rat}
    (absent : key ∉ cells.map Prod.fst) :
    cellActivity (Function.update point key value) cells =
      cellActivity point cells := by
  apply cellActivity_congr
  intro cell membership
  apply Function.update_of_ne
  rintro rfl
  exact absent (List.mem_map_of_mem membership)

/-- The extreme contributions of a cell are those of the values within the
bounds of its variable. -/
private theorem Bounded.contributions {cell : Index × Exact}
    (bounded : model.Bounded cell) :
    Exact.Bounds (model.leastOf cell) (model.greatestOf cell) ∧
      ∀ value, Exact.Between (model.leastOf cell) (model.greatestOf cell) value ↔
        Exact.Between (model.bounds cell.1).1 (model.bounds cell.1).2
          (value / cell.2.toRat) := by
  obtain ⟨factor, nonzero, coefficient⟩ := bounded.coefficient
  simp only [leastOf, greatestOf, coefficient]
  exact bounded.bounds.multiples nonzero

section Totals

variable {cells : List (Index × Exact)} {lower upper : Exact}

theorem bounds_totals (bounded : ∀ cell ∈ cells, model.Bounded cell)
    (bounds : Exact.Bounds lower upper) :
    Exact.Bounds
      (cells.foldl (fun total cell => total + model.leastOf cell) lower)
      (cells.foldl (fun total cell => total + model.greatestOf cell) upper) := by
  induction cells generalizing lower upper with
  | nil => exact bounds
  | cons cell rest induction =>
      have contributions := (bounded cell List.mem_cons_self).contributions.1
      apply induction _ (bounds.add contributions)
      intro other membership
      exact bounded other (List.mem_cons_of_mem _ membership)

/-- The extreme contributions of cells, added to bounds, are the bounds of what
is reached from between those by values of the variables. -/
theorem between_totals_iff (distinct : (cells.map Prod.fst).Nodup)
    (bounded : ∀ cell ∈ cells, model.Bounded cell)
    (bounds : Exact.Bounds lower upper) (value : Rat) :
    Exact.Between
        (cells.foldl (fun total cell => total + model.leastOf cell) lower)
        (cells.foldl (fun total cell => total + model.greatestOf cell) upper)
        value ↔
      ∃ start point, Exact.Between lower upper start ∧
        model.Inside cells point ∧
        value = start + cellActivity point cells := by
  induction cells generalizing lower upper value with
  | nil =>
      constructor
      · intro between
        exact ⟨value, fun _ => 0, between, nofun, by simp⟩
      · rintro ⟨start, point, between, _, rfl⟩
        simpa using between
  | cons cell rest induction =>
      rw [List.map_cons, List.nodup_cons] at distinct
      have cellBounded := bounded cell List.mem_cons_self
      obtain ⟨factor, nonzero, coefficient⟩ := cellBounded.coefficient
      have factorEq : cell.2.toRat = factor := by
        rw [coefficient]
        rfl
      obtain ⟨contributions, members⟩ := cellBounded.contributions
      rw [List.foldl_cons, List.foldl_cons, induction distinct.2
        (fun other membership => bounded other (List.mem_cons_of_mem _ membership))
        (bounds.add contributions)]
      simp only [Exact.between_add_iff bounds contributions, members]
      constructor
      · rintro ⟨reached, point, ⟨start, between, share⟩, inside, rfl⟩
        refine ⟨start, Function.update point cell.1
          ((reached - start) / cell.2.toRat), between, ?_, ?_⟩
        · intro other membership
          rcases List.mem_cons.mp membership with rfl | later
          · rw [Function.update_self]
            exact share
          · exact inside_update distinct.1 inside other later
        · rw [cellActivity_cons, cellActivity_update distinct.1,
            Function.update_self, factorEq, mul_div_cancel₀ _ nonzero]
          ring
      · rintro ⟨start, point, between, inside, rfl⟩
        refine ⟨start + cell.2.toRat * point cell.1, point,
          ⟨start, between, ?_⟩, ?_, ?_⟩
        · have share : start + cell.2.toRat * point cell.1 - start =
              factor * point cell.1 := by
            rw [factorEq]
            ring
          rw [share, factorEq, mul_div_cancel_left₀ _ nonzero]
          exact inside cell List.mem_cons_self
        · intro other membership
          exact inside other (List.mem_cons_of_mem _ membership)
        · rw [cellActivity_cons]
          ring

end Totals

end Model

end LinearProgram
