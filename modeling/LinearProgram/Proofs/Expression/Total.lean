import LinearProgram.Expression.Evaluation
import LinearProgram.Proofs.Model.Coefficients
import LinearProgram.Proofs.Model.ExtremeActivity
import LinearProgram.Proofs.Scalar.Laws
import Mathlib.Algebra.BigOperators.Ring.Finset

/-!
# Totals of rows

The total of a row is its constant and the activity of its cells.  Adding a
multiple of another row adds this multiple of its total, apart from the
coefficients that come within the tolerance: their cells are dropped, and with
them what they would have contributed.

Both rows have cells of their own, in an order of their own, and the sum drops
some and moves others to the end.  So totals are compared as sums over all
variables that occur in either row, where a variable without a cell contributes
nothing.
-/

namespace LinearProgram.Row

section Coefficients

variable {α : Type} [Scalar α] {row : Row α} {allowed : Index → Prop}

/-- The row with a multiple of another one added, cell by cell. -/
def plusMultiple (start operand : Row α) (factor : α) : Row α :=
  { start.insertScaled operand.cells.toList factor with
    constant := start.constant + operand.constant * factor }

theorem coefficient_insertScaled (row : Row α) {cells : List (Index × α)}
    (distinct : (cells.map Prod.fst).Nodup) (factor : α) (index : Index) :
    (row.insertScaled cells factor).coefficient index =
      match OrderedMap.find index cells with
      | some amount => kept (row.coefficient index + amount * factor)
      | none => row.coefficient index := by
  induction cells generalizing row with
  | nil => rfl
  | cons cell rest induction =>
      obtain ⟨label, amount⟩ := cell
      rw [List.map_cons, List.nodup_cons] at distinct
      refine (induction (row.insert label (amount * factor)) distinct.2).trans ?_
      by_cases same : label = index
      -- No later cell is of the same variable, so nothing is added to it again.
      · subst same
        have absent : OrderedMap.find label rest = none :=
          OrderedMap.find_eq_none_iff.mpr distinct.1
        simp [OrderedMap.find, absent]
      · have apart : index ≠ label := fun equal => same equal.symm
        simp only [OrderedMap.find, if_neg same, coefficient_insert_of_ne row apart]

theorem Within.of_mem_keys (spans : row.Within allowed) {index : Index}
    (listed : index ∈ row.cells.keys) : allowed index := by
  obtain ⟨cell, membership, rfl⟩ := List.mem_map.mp listed
  exact (spans cell membership).1

theorem Within.insertScaled (spans : row.Within allowed)
    {cells : List (Index × α)} (inside : ∀ cell ∈ cells, allowed cell.1)
    (factor : α) : (row.insertScaled cells factor).Within allowed := by
  induction cells generalizing row with
  | nil => exact spans
  | cons cell rest induction =>
      apply induction (spans.insert (inside cell List.mem_cons_self) _)
      intro other membership
      exact inside other (List.mem_cons_of_mem _ membership)

theorem Within.plusMultiple {start operand : Row α} (startSpans : start.Within allowed)
    (operandSpans : operand.Within allowed) (factor : α) :
    (start.plusMultiple operand factor).Within allowed :=
  startSpans.insertScaled (fun cell present => (operandSpans cell present).1) factor

theorem Within.kept_coefficient (spans : row.Within allowed) (index : Index) :
    kept (row.coefficient index) = row.coefficient index := by
  rw [coefficient]
  cases found : row.cells.get? index with
  | none => exact ite_self 0
  | some amount =>
      obtain ⟨_, large⟩ := spans _ (OrderedMap.get?_eq_some_iff.mp found)
      exact if_neg (by simp [large])

end Coefficients

variable {row start operand : Row Exact} {allowed : Index → Prop}

/-- A row of rationals, with cells of such variables. -/
structure Rational (row : Row Exact) (allowed : Index → Prop) : Prop where
  within : row.Within allowed
  cells : row.FiniteCells
  constant : Scalar.isFinite row.constant = true

theorem Rational.coefficient_eq (rational : row.Rational allowed) (index : Index) :
    row.coefficient index = .finite (row.coefficient index).toRat := by
  apply Exact.eq_finite_of_isFinite
  rw [coefficient]
  cases found : row.cells.get? index with
  | none => rfl
  | some amount => exact rational.cells _ (OrderedMap.get?_eq_some_iff.mp found)

theorem kept_finite (sum : Rat) :
    kept (Exact.finite sum) = .finite (if |sum| ≤ 1e-12 then 0 else sum) := by
  unfold kept
  by_cases small : |sum| ≤ 1e-12
  · rw [if_pos small, if_pos ((Exact.nearZero_finite_iff sum).mpr small)]
    rfl
  · rw [if_neg small, if_neg (mt (Exact.nearZero_finite_iff sum).mp small)]

section Sums

/-- What the coefficients of a variable add up to. -/
def residue (start operand : Row Exact) (factor : Rat) (index : Index) : Rat :=
  (start.coefficient index).toRat + factor * (operand.coefficient index).toRat

/-- The variables that occur in one row or the other. -/
def occurring (start operand : Row Exact) : Finset Index :=
  (start.cells.keys ++ operand.cells.keys).toFinset

/-- The variables whose coefficients add up to no more than the tolerance. -/
def lost (start operand : Row Exact) (factor : Rat) : Finset Index :=
  (occurring start operand).filter
    (fun index => |residue start operand factor index| ≤ 1e-12)

theorem mem_of_occurring {index : Index} (startWithin : start.Within allowed)
    (operandWithin : operand.Within allowed)
    (occurs : index ∈ occurring start operand) : allowed index := by
  rcases List.mem_append.mp (List.mem_toFinset.mp occurs) with listed | listed
  · exact startWithin.of_mem_keys listed
  · exact operandWithin.of_mem_keys listed

theorem coefficient_plusMultiple (startRational : start.Rational allowed)
    (operandRational : operand.Rational allowed) (factor : Rat) (index : Index) :
    (start.plusMultiple operand (.finite factor)).coefficient index =
      kept (.finite (residue start operand factor index)) := by
  have cells : (start.plusMultiple operand (.finite factor)).coefficient index =
      (start.insertScaled operand.cells.toList (.finite factor)).coefficient
        index := rfl
  have own := startRational.coefficient_eq index
  rw [cells, coefficient_insertScaled _ operand.cells.distinct]
  cases found : OrderedMap.find index operand.cells.toList with
  | none =>
      have other : operand.coefficient index = 0 := by
        rw [coefficient, OrderedMap.get?, found, Option.getD_none]
      have sum : residue start operand factor index =
          (start.coefficient index).toRat := by
        rw [residue, other, Exact.zero_eq, Exact.finite_toRat, mul_zero, add_zero]
      rw [sum, ← own, startRational.within.kept_coefficient]
  | some amount =>
      have other : operand.coefficient index = amount := by
        rw [coefficient, OrderedMap.get?, found, Option.getD_some]
      have finite := operandRational.coefficient_eq index
      rw [other] at finite
      dsimp only
      rw [own, finite, Exact.finite_mul_finite, Exact.finite_add_finite, residue,
        other, mul_comm]

theorem constant_plusMultiple (startRational : start.Rational allowed)
    (operandRational : operand.Rational allowed) (factor : Rat) :
    (start.plusMultiple operand (.finite factor)).constant =
      .finite (start.constant.toRat + factor * operand.constant.toRat) := by
  change start.constant + operand.constant * .finite factor = _
  rw [Exact.eq_finite_of_isFinite startRational.constant,
    Exact.eq_finite_of_isFinite operandRational.constant,
    Exact.finite_mul_finite, Exact.finite_add_finite, mul_comm]
  rfl

/-- A variable that is lost has no cell. -/
theorem not_mem_keys_of_lost (startRational : start.Rational allowed)
    (operandRational : operand.Rational allowed) {factor : Rat} {index : Index}
    (dropped : index ∈ lost start operand factor) :
    index ∉ (start.plusMultiple operand (.finite factor)).cells.keys := by
  intro listed
  obtain ⟨cell, membership, rfl⟩ := List.mem_map.mp listed
  have sum := coefficient_plusMultiple startRational operandRational factor cell.1
  rw [coefficient, OrderedMap.get?_eq_some_iff.mpr membership, Option.getD_some,
    kept_finite, if_pos (Finset.mem_filter.mp dropped).2] at sum
  have large := (startRational.within.plusMultiple operandRational.within
    (.finite factor) cell membership).2
  rw [sum, ← Bool.not_eq_true, Exact.nearZero_finite_iff] at large
  norm_num at large

theorem coefficient_of_not_lost (startRational : start.Rational allowed)
    (operandRational : operand.Rational allowed) {factor : Rat} {index : Index}
    (dropped : index ∉ lost start operand factor) :
    (start.plusMultiple operand (.finite factor)).coefficient index =
      .finite (residue start operand factor index) := by
  rw [coefficient_plusMultiple startRational operandRational, kept_finite]
  by_cases occurs : index ∈ occurring start operand
  · have large : ¬|residue start operand factor index| ≤ 1e-12 :=
      fun small => dropped (Finset.mem_filter.mpr ⟨occurs, small⟩)
    rw [if_neg large]
  · simp only [occurring, List.mem_toFinset, List.mem_append, not_or] at occurs
    have none : residue start operand factor index = 0 := by
      rw [residue, coefficient_of_absent occurs.1, coefficient_of_absent occurs.2,
        Exact.zero_eq, Exact.finite_toRat, mul_zero, add_zero]
    rw [none, ite_self]

/-- The constant, and the activity of the cells where the variables have these
values. -/
def total (point : Index → Rat) (row : Row Exact) : Rat :=
  row.constant.toRat + cellActivity point row.cells.toList

/-- The total is a sum over any variables that include those of the row. -/
theorem total_eq_sum (point : Index → Rat) {support : Finset Index}
    (within : row.Within (· ∈ support)) :
    row.total point = row.constant.toRat +
      ∑ index ∈ support, (row.coefficient index).toRat * point index := by
  have listed : cellActivity point row.cells.toList = (row.cells.keys.map
      (fun index => (row.coefficient index).toRat * point index)).sum := by
    rw [cellActivity, OrderedMap.keys, List.map_map]
    congr 1
    apply List.map_congr_left
    intro cell membership
    have found := OrderedMap.get?_eq_some_iff.mpr membership
    simp only [Function.comp_apply, coefficient, found, Option.getD_some]
  have covered : row.cells.keys.toFinset ⊆ support :=
    fun index listed => within.of_mem_keys (List.mem_toFinset.mp listed)
  have distinct : row.cells.keys.Nodup := row.cells.distinct
  rw [total, listed, ← List.sum_toFinset _ distinct, Finset.sum_subset covered]
  intro index _ outside
  rw [coefficient_of_absent (fun listed => outside (List.mem_toFinset.mpr listed)),
    Exact.zero_eq, Exact.finite_toRat, zero_mul]

private theorem Within.of_keys {support : Finset Index} (spans : row.Within allowed)
    (included : ∀ index ∈ row.cells.keys, index ∈ support) :
    row.Within (· ∈ support) := by
  intro cell membership
  exact ⟨included _ (List.mem_map_of_mem membership), (spans cell membership).2⟩

/-- The total of a sum is the sum of the totals, less what is lost. -/
theorem total_plusMultiple (startRational : start.Rational allowed)
    (operandRational : operand.Rational allowed) (factor : Rat)
    (point : Index → Rat) :
    (start.plusMultiple operand (.finite factor)).total point =
      start.total point + factor * operand.total point -
        ∑ index ∈ lost start operand factor,
          residue start operand factor index * point index := by
  have startWithin : start.Within (· ∈ occurring start operand) :=
    startRational.within.of_keys (fun index listed =>
      List.mem_toFinset.mpr (List.mem_append_left _ listed))
  have operandWithin : operand.Within (· ∈ occurring start operand) :=
    operandRational.within.of_keys (fun index listed =>
      List.mem_toFinset.mpr (List.mem_append_right _ listed))
  have sumWithin : (start.plusMultiple operand (.finite factor)).Within
      (· ∈ occurring start operand) :=
    startWithin.plusMultiple operandWithin _
  -- Variables outside both rows contribute nothing, so all three totals are sums
  -- over the same variables, and can be compared share by share.
  have shares : ∀ index ∈ occurring start operand,
      ((start.plusMultiple operand (.finite factor)).coefficient index).toRat *
          point index =
        residue start operand factor index * point index -
          if |residue start operand factor index| ≤ 1e-12
            then residue start operand factor index * point index else 0 := by
    intro index _
    rw [coefficient_plusMultiple startRational operandRational, kept_finite,
      Exact.finite_toRat]
    split <;> ring
  have residues : ∑ index ∈ occurring start operand,
        residue start operand factor index * point index =
      ∑ index ∈ occurring start operand,
          (start.coefficient index).toRat * point index +
        factor * ∑ index ∈ occurring start operand,
          (operand.coefficient index).toRat * point index := by
    rw [Finset.mul_sum, ← Finset.sum_add_distrib]
    apply Finset.sum_congr rfl
    intro index _
    rw [residue]
    ring
  rw [total_eq_sum point sumWithin, total_eq_sum point startWithin,
    total_eq_sum point operandWithin,
    constant_plusMultiple startRational operandRational, Exact.finite_toRat,
    Finset.sum_congr rfl shares, Finset.sum_sub_distrib, residues, lost,
    Finset.sum_filter]
  ring

end Sums

end LinearProgram.Row

namespace LinearProgram.Expression

/-- Where all variables have values, the terms add up to the activity of their
coefficients. -/
theorem accumulate_eq {assignment : Participant → Option Exact}
    {point : Index → Rat} {entries : List (Index × Term Exact)} (start : Rat)
    (known : ∀ entry ∈ entries,
      assignment entry.2.participant = some (.finite (point entry.1)) ∧
        Scalar.isFinite entry.2.coefficient = true) :
    accumulate assignment (.finite start) (entries.map Prod.snd) =
      some (.finite (start + cellActivity point
        (entries.map (fun entry => (entry.1, entry.2.coefficient))))) := by
  induction entries generalizing start with
  | nil => simp [accumulate]
  | cons entry rest induction =>
      obtain ⟨assigned, finite⟩ := known entry List.mem_cons_self
      have remaining := induction
        (start + point entry.1 * entry.2.coefficient.toRat)
        (fun other membership => known other (List.mem_cons_of_mem _ membership))
      rw [accumulate] at remaining ⊢
      rw [List.map_cons, List.foldlM_cons, assigned,
        Exact.eq_finite_of_isFinite finite]
      simp only [Option.map_some, Exact.finite_mul_finite,
        Exact.finite_add_finite, Option.bind_eq_bind, Option.bind_some]
      rw [remaining, List.map_cons, cellActivity_cons, mul_comm, add_assoc]

end LinearProgram.Expression
