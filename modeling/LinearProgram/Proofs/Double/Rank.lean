import LinearProgram.Proofs.Double.Magnitude
import Mathlib.Algebra.Order.Ring.Int
import Mathlib.Data.Prod.Lex

/-!
# Doubles by rank

The sign of a double, its exponent and its significand, in this order, are its
rank, and doubles that are defined are ordered as their ranks are.  So they are
ordered like numbers, and the larger and the smaller one of two are their least
upper and their greatest lower bound.
-/

namespace LinearProgram.Double

open Float.Model (UnpackedFloat)
open Float.Model.UnpackedFloat (Sign)

section Rank

/-- The place of parts among those of all numbers.  Of two negative numbers, the
one with the larger magnitude comes first. -/
def rank : UnpackedFloat → ℤ ×ₗ ℤ ×ₗ ℤ
  | .infinity .negative => toLex (-2, toLex (0, 0))
  | .finite .negative significand exponent _ =>
      toLex (-1, toLex (-exponent, -(significand : ℤ)))
  | .zero _ | .notANumber => toLex (0, toLex (0, 0))
  | .finite .positive significand exponent _ =>
      toLex (1, toLex (exponent, (significand : ℤ)))
  | .infinity .positive => toLex (2, toLex (0, 0))

private theorem isLE_fields_iff {exponent other : Int}
    {significand otherSignificand : Nat} :
    ((compare exponent other).then
      (compare significand otherSignificand)).isLE = true ↔
        exponent < other ∨ exponent = other ∧ significand ≤ otherSignificand := by
  rcases lt_trichotomy exponent other with below | same | above
  · rw [compare_lt_iff_lt.mpr below]
    simp [below]
  · subst same
    simp [Nat.isLE_compare]
  · rw [compare_gt_iff_gt.mpr above]
    simp
    omega

/-- Parts are ordered by rank. -/
theorem isLE_compare_iff {unpacked other : UnpackedFloat}
    (defined : unpacked ≠ .notANumber) (otherDefined : other ≠ .notANumber) :
    (unpacked.compare other).any Ordering.isLE = true ↔ rank unpacked ≤ rank other := by
  cases unpacked with
  | notANumber => exact absurd rfl defined
  | infinity sign =>
      cases other with
      | notANumber => exact absurd rfl otherDefined
      | infinity opposed => cases sign <;> cases opposed <;> decide
      | zero opposed => cases sign <;> cases opposed <;> decide
      | finite opposed =>
          cases sign <;> cases opposed <;>
            simp [UnpackedFloat.compare, rank, Prod.Lex.toLex_le_toLex]
  | zero sign =>
      cases other with
      | notANumber => exact absurd rfl otherDefined
      | infinity opposed => cases sign <;> cases opposed <;> decide
      | zero opposed => cases sign <;> cases opposed <;> decide
      | finite opposed =>
          cases opposed <;>
            simp [UnpackedFloat.compare, rank, Prod.Lex.toLex_le_toLex]
  | finite sign significand exponent positive =>
      cases other with
      | notANumber => exact absurd rfl otherDefined
      | infinity opposed =>
          cases sign <;> cases opposed <;>
            simp [UnpackedFloat.compare, rank, Prod.Lex.toLex_le_toLex]
      | zero opposed =>
          cases sign <;>
            simp [UnpackedFloat.compare, rank, Prod.Lex.toLex_le_toLex]
      | finite opposed otherSignificand otherExponent otherPositive =>
          -- Of numbers with one sign, exponent and significand decide.
          cases sign with
          | negative =>
              cases opposed with
              | negative =>
                  simp only [UnpackedFloat.compare, rank, Prod.Lex.toLex_le_toLex,
                    Option.any_some, Ordering.swap_then, Int.compare_swap,
                    Nat.compare_swap, isLE_fields_iff]
                  simp
                  omega
              | positive =>
                  simp [UnpackedFloat.compare, rank, Prod.Lex.toLex_le_toLex]
          | positive =>
              cases opposed with
              | negative =>
                  simp [UnpackedFloat.compare, rank, Prod.Lex.toLex_le_toLex]
              | positive =>
                  simp [UnpackedFloat.compare, rank, Prod.Lex.toLex_le_toLex,
                    isLE_fields_iff]

end Rank

section Order

variable {first second third : Float}

theorem le_iff_rank (defined : parts first ≠ .notANumber)
    (otherDefined : parts second ≠ .notANumber) :
    first ≤ second ↔ rank (parts first) ≤ rank (parts second) := by
  rw [le_iff, isLE_compare_iff defined otherDefined]

protected theorem le_trans (one : first ≤ second) (two : second ≤ third) :
    first ≤ third := by
  obtain ⟨firstDefined, secondDefined⟩ := defined_of_le one
  have thirdDefined := (defined_of_le two).2
  rw [le_iff_rank firstDefined secondDefined] at one
  rw [le_iff_rank secondDefined thirdDefined] at two
  rw [le_iff_rank firstDefined thirdDefined]
  exact le_trans one two

theorem neg_le_neg_iff : -first ≤ -second ↔ second ≤ first := by
  refine ⟨?_, neg_le_neg⟩
  intro ordered
  have turned := neg_le_neg ordered
  rwa [Double.neg_neg, Double.neg_neg] at turned

theorem le_neg_iff : first ≤ -second ↔ second ≤ -first := by
  rw [← neg_le_neg_iff, Double.neg_neg]

end Order

section Extremes

variable {first second third : Float}

private theorem eq_zero_of_beq {value : Float} (same : (value == 0) = true) :
    ∃ sign, value = ofParts (.zero sign) := by
  rcases parts_eq_of_beq same with ⟨sign, _, zero, _⟩ | equal
  · exact ⟨sign, eq_ofParts zero⟩
  · exact ⟨.positive, eq_ofParts (equal.trans parts_zero)⟩

/-- The larger one of two numbers is one of them, and not below the other one. -/
theorem larger_cases (defined : parts first ≠ .notANumber)
    (otherDefined : parts second ≠ .notANumber) :
    (Scalar.larger first second = first ∧ second ≤ first) ∨
      (Scalar.larger first second = second ∧ first ≤ second) := by
  unfold Scalar.larger
  by_cases below : first < second
  · exact .inr ⟨if_pos below, le_of_lt below⟩
  · rw [if_neg below]
    by_cases above : second < first
    · exact .inl ⟨if_pos above, le_of_lt above⟩
    · rw [if_neg above]
      by_cases same : (first == second) = true
      · rw [if_pos same]
        by_cases zero : (first == 0) = true
        · rw [if_pos zero]
          obtain ⟨sign, rfl⟩ := eq_zero_of_beq zero
          obtain ⟨other, rfl⟩ :=
            eq_zero_of_beq (Double.beq_trans (Double.beq_comm same) zero)
          cases sign <;> cases other <;> decide
        · rw [if_neg zero]
          exact .inl ⟨rfl, le_of_beq (Double.beq_comm same)⟩
      · rcases undefined_of_incomparable below above same with undefined | undefined
        · exact absurd undefined defined
        · exact absurd undefined otherDefined

theorem larger_le_iff (defined : parts first ≠ .notANumber)
    (otherDefined : parts second ≠ .notANumber) :
    Scalar.larger first second ≤ third ↔ first ≤ third ∧ second ≤ third := by
  rcases larger_cases defined otherDefined with ⟨same, above⟩ | ⟨same, above⟩
  · rw [same]
    exact ⟨fun ordered => ⟨ordered, Double.le_trans above ordered⟩, And.left⟩
  · rw [same]
    exact ⟨fun ordered => ⟨Double.le_trans above ordered, ordered⟩, And.right⟩

theorem le_smaller_iff (defined : parts first ≠ .notANumber)
    (otherDefined : parts second ≠ .notANumber) :
    third ≤ Scalar.smaller first second ↔ third ≤ first ∧ third ≤ second := by
  have negated : ∀ {value : Float}, parts value ≠ .notANumber →
      parts (-value) ≠ .notANumber := by
    intro value number
    rw [parts_neg]
    cases found : parts value with
    | notANumber => exact absurd found number
    | _ => exact nofun
  rw [Scalar.smaller, le_neg_iff, larger_le_iff (negated defined) (negated otherDefined),
    neg_le_neg_iff, neg_le_neg_iff]

/-- Bounds that are in order meet the unit interval unless they are on one side of
it. -/
theorem clipped_ordered_iff {lower upper : Float} (ordered : lower ≤ upper) :
    Scalar.larger lower 0 ≤ Scalar.smaller upper 1 ↔ lower ≤ 1 ∧ 0 ≤ upper := by
  obtain ⟨lowerDefined, upperDefined⟩ := defined_of_le ordered
  have unit : (0 : Float) ≤ 1 := by decide
  obtain ⟨zeroDefined, oneDefined⟩ := defined_of_le unit
  rw [larger_le_iff lowerDefined zeroDefined, le_smaller_iff upperDefined oneDefined,
    le_smaller_iff upperDefined oneDefined]
  exact ⟨fun all => ⟨all.1.2, all.2.1⟩,
    fun both => ⟨⟨ordered, both.1⟩, both.2, unit⟩⟩

end Extremes

end LinearProgram.Double
