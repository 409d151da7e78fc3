import LinearProgram.Expression.Comparison
import LinearProgram.Proofs.Scalar.Intervals
import Mathlib.Tactic.NormNum

/-!
# Laws of scalars

The class of scalars has no laws, because doubles have few of them.  Those
that hold of doubles and of exact numbers alike are collected here; they are
what the invariants of expressions and rows rest on.

Exact numbers obey them.  Rationals are rounded nowhere: zero and one are neutral,
and the tolerance is what it says.
-/

namespace LinearProgram

/-- Numbers of which the tolerance can be taken at its word. -/
class LawfulScalar (α : Type) [Scalar α] : Prop where
  isFinite_zero : Scalar.isFinite (0 : α) = true
  /-- What is not nearly zero exceeds the tolerance in magnitude. -/
  epsilon_lt_magnitude {value : α} (finite : Scalar.isFinite value = true)
    (large : Scalar.nearZero value = false) :
    Scalar.epsilon < Scalar.magnitude value
  /-- Numbers that compare as equal differ by no more than the tolerance. -/
  close_of_beq {first second : α} (finite : Scalar.isFinite first = true)
    (same : (first == second) = true) : Expression.close first second = true

/-- Numbers that are their own sum with zero, unless they are negligible. -/
class NeutralZero (α : Type) [Scalar α] : Prop where
  zero_add_of_large {value : α} (large : Scalar.nearZero value = false) :
    0 + value = value

namespace Exact

@[simp]
theorem finite_toRat (value : Rat) : (Exact.finite value).toRat = value := rfl

theorem zero_eq : (0 : Exact) = .finite 0 := rfl

theorem one_eq : (1 : Exact) = .finite 1 := rfl

/-- A finite number is a rational. -/
theorem eq_finite_of_isFinite {number : Exact}
    (finite : Scalar.isFinite number = true) : number = .finite number.toRat := by
  cases number with
  | finite value => rfl
  | infinite negative => cases finite
  | undefined => cases finite

theorem isFinite_add {first second : Exact} (firstFinite : Scalar.isFinite first = true)
    (secondFinite : Scalar.isFinite second = true) :
    Scalar.isFinite (first + second) = true := by
  rw [eq_finite_of_isFinite firstFinite, eq_finite_of_isFinite secondFinite]
  rfl

theorem isFinite_mul {first second : Exact} (firstFinite : Scalar.isFinite first = true)
    (secondFinite : Scalar.isFinite second = true) :
    Scalar.isFinite (first * second) = true := by
  rw [eq_finite_of_isFinite firstFinite, eq_finite_of_isFinite secondFinite]
  rfl

theorem epsilon_eq : (Scalar.epsilon : Exact) = .finite (1e-12) := rfl

@[simp]
theorem neg_finite (value : Rat) : -Exact.finite value = .finite (-value) := rfl

theorem magnitude_finite (value : Rat) :
    Scalar.magnitude (Exact.finite value) = .finite |value| := by
  rw [Scalar.magnitude, neg_finite, larger_finite]
  rfl

theorem nearZero_finite_iff (value : Rat) :
    Scalar.nearZero (Exact.finite value) = true ↔ |value| ≤ 1e-12 := by
  simp only [Scalar.nearZero, zero_eq, epsilon_eq, neg_finite, finite_lt_finite,
    finite_le_finite]
  split
  · rename_i negative
    rw [abs_of_neg negative, decide_eq_true_eq]
  · rename_i positive
    rw [abs_of_nonneg (not_lt.mp positive), decide_eq_true_eq]

instance : LawfulScalar Exact where
  isFinite_zero := rfl
  epsilon_lt_magnitude {value} finite large := by
    rw [eq_finite_of_isFinite finite] at large ⊢
    rw [magnitude_finite, epsilon_eq, finite_lt_finite]
    rw [← Bool.not_eq_true, nearZero_finite_iff] at large
    exact not_le.mp large
  close_of_beq {first second} finite same := by
    rw [eq_finite_of_isFinite finite] at same ⊢
    cases second with
    | finite other =>
        have equal : first.toRat = other := of_decide_eq_true same
        rw [Expression.close, equal, finite_sub_finite, sub_self,
          magnitude_finite, epsilon_eq, decide_eq_true_eq, finite_le_finite]
        norm_num
    | infinite negative => cases same
    | undefined => cases same

protected theorem zero_add (number : Exact) : 0 + number = number := by
  cases number with
  | finite value => exact congrArg Exact.finite (zero_add value)
  | infinite negative => rfl
  | undefined => rfl

instance : NeutralZero Exact where
  zero_add_of_large {value} _ := Exact.zero_add value

theorem nearZero_one : Scalar.nearZero (1 : Exact) = false := by
  rw [← Bool.not_eq_true, one_eq, nearZero_finite_iff]
  norm_num

end Exact

end LinearProgram
