import LinearProgram.Proofs.Double.Order

/-!
# Differences of doubles

A difference is the sum with the opposite number.  The two differences of a pair
of numbers are opposite to each other, however they are rounded, so neither is
closer to zero than the other: closeness up to the tolerance is symmetric.
-/

namespace LinearProgram.Double

open Float.Model (UnpackedFloat Format)
open Float.Model.UnpackedFloat (Sign)

section Parts

private theorem apply_neg (sign : Sign) (number : Int) :
    (-sign).apply number = -sign.apply number := by
  cases sign with
  | negative => exact (Int.neg_neg number).symm
  | positive => rfl

private theorem addParts_neg (unpacked other : UnpackedFloat) :
    UnpackedFloat.add .binary64 unpacked other.neg =
      UnpackedFloat.sub .binary64 unpacked other := by
  cases other with
  | notANumber => cases unpacked <;> rfl
  | infinity sign => cases unpacked <;> rfl
  | zero sign => cases unpacked <;> rfl
  | finite sign significand exponent positive =>
      cases unpacked with
      | finite =>
          simp only [UnpackedFloat.neg, UnpackedFloat.add, UnpackedFloat.sub, apply_neg,
            sub_eq_add_neg]
      | _ => rfl

private theorem round_neg (sign : Sign) (significand : Nat) (exponent : Int) :
    UnpackedFloat.round .binary64 (-sign) significand exponent =
      (UnpackedFloat.round .binary64 sign significand exponent).neg := by
  simp only [UnpackedFloat.round, UnpackedFloat.roundWithAccuracy]
  split <;> rfl

private theorem normalize_neg {number : Int} (nonzero : number ≠ 0) (exponent : Int)
    (sign : Sign) : UnpackedFloat.normalize .binary64 (-number) exponent sign =
      (UnpackedFloat.normalize .binary64 number exponent sign).neg := by
  rcases lt_or_gt_of_ne nonzero with negative | positive
  · have order : compare number 0 = .lt := compare_lt_iff_lt.mpr negative
    have other : compare (-number) 0 = .gt := compare_gt_iff_gt.mpr (by omega)
    simp only [UnpackedFloat.normalize, order, other]
    exact round_neg .negative _ _
  · have order : compare number 0 = .gt := compare_gt_iff_gt.mpr positive
    have other : compare (-number) 0 = .lt := compare_lt_iff_lt.mpr (by omega)
    simp only [UnpackedFloat.normalize, order, other, Int.neg_neg]
    exact round_neg .positive _ _

private theorem subParts_swap (unpacked other : UnpackedFloat) :
    UnpackedFloat.sub .binary64 other unpacked =
        (UnpackedFloat.sub .binary64 unpacked other).neg ∨
      (∃ sign, UnpackedFloat.sub .binary64 unpacked other = .zero sign) ∧
        ∃ sign, UnpackedFloat.sub .binary64 other unpacked = .zero sign := by
  cases unpacked with
  | notANumber => exact .inl (by cases other <;> rfl)
  | infinity sign =>
      left
      cases other with
      | infinity opposed => cases sign <;> cases opposed <;> rfl
      | _ => cases sign <;> rfl
  | zero sign =>
      cases other with
      | notANumber => exact .inl rfl
      | infinity opposed => exact .inl (by cases opposed <;> rfl)
      | zero opposed =>
          right
          cases sign <;> cases opposed <;> exact ⟨⟨_, rfl⟩, _, rfl⟩
      | finite opposed => exact .inl (by cases opposed <;> rfl)
  | finite sign significand exponent positive =>
      cases other with
      | notANumber => exact .inl rfl
      | infinity opposed => exact .inl (by cases opposed <;> rfl)
      | zero opposed => exact .inl rfl
      | finite opposed otherSignificand otherExponent otherPositive =>
          simp only [UnpackedFloat.sub, min_comm otherExponent exponent]
          generalize sign.apply _ = first
          generalize opposed.apply _ = second
          rw [← Int.neg_sub first second]
          by_cases same : first - second = 0
          · rw [same]
            exact .inr ⟨⟨_, rfl⟩, _, rfl⟩
          · exact .inl (normalize_neg same _ _)

end Parts

/-- A difference is the sum with the opposite number, whatever the two are. -/
theorem add_neg (first second : Float) : first + -second = first - second := by
  have sum : first + -second =
      ofParts (.add .binary64 (parts first) (parts (-second))) := rfl
  rw [sum, parts_neg, addParts_neg]
  rfl

/-- The two differences of a pair are opposite, unless both are zeros. -/
theorem sub_swap (first second : Float) : second - first = -(first - second) ∨
    (∃ sign, parts (first - second) = .zero sign) ∧
      ∃ sign, parts (second - first) = .zero sign := by
  rcases subParts_swap (parts first) (parts second) with
    opposite | ⟨⟨sign, zero⟩, other, otherZero⟩
  · exact .inl ((congrArg ofParts opposite).trans (ofParts_neg _))
  · refine .inr ⟨⟨sign, ?_⟩, other, ?_⟩
    · exact (congrArg (parts ∘ ofParts) zero).trans (parts_ofParts trivial)
    · exact (congrArg (parts ∘ ofParts) otherZero).trans (parts_ofParts trivial)

/-- A finite number less itself is the positive zero. -/
protected theorem sub_self {value : Float} (finite : Scalar.isFinite value = true) :
    value - value = 0 := by
  have difference : value - value =
      ofParts (.sub .binary64 (parts value) (parts value)) := rfl
  rw [difference]
  rw [isFinite_iff] at finite
  cases found : parts value with
  | notANumber => rw [found] at finite; cases finite
  | infinity sign => rw [found] at finite; cases finite
  | zero sign => cases sign <;> decide
  | finite sign significand exponent positive =>
      rw [sub_self_finite]
      decide

section Closeness

private theorem eq_of_parts {value : Float} {unpacked : UnpackedFloat}
    (found : parts value = unpacked) : value = ofParts unpacked := by
  rw [← found, ofParts_parts]

/-- What is within the tolerance in magnitude is nearly zero, and nothing else. -/
theorem magnitude_le_epsilon_iff {value : Float} :
    Scalar.magnitude value ≤ Scalar.epsilon ↔ Scalar.nearZero value = true := by
  rcases sign_cases value with negative | positive | ⟨sign, zero⟩ | undefined
  · rw [Scalar.magnitude, Scalar.larger, if_pos (lt_neg_of_neg negative), Scalar.nearZero,
      if_pos negative, decide_eq_true_iff]
  · have order := neg_lt_of_pos positive
    rw [Scalar.magnitude, Scalar.larger, if_neg (not_lt_of_lt order), if_pos order,
      Scalar.nearZero, if_neg (not_lt_of_lt positive), decide_eq_true_iff]
  · rw [eq_of_parts zero]
    cases sign <;> decide
  · rw [eq_of_parts undefined]
    decide

theorem nearZero_neg (value : Float) :
    Scalar.nearZero (-value) = Scalar.nearZero value := by
  rcases sign_cases value with negative | positive | ⟨sign, zero⟩ | undefined
  · rw [Scalar.nearZero, if_neg (not_lt_of_lt (neg_pos_of_neg negative)),
      Scalar.nearZero, if_pos negative]
  · rw [Scalar.nearZero, if_pos (neg_neg_of_pos positive), Double.neg_neg,
      Scalar.nearZero, if_neg (not_lt_of_lt positive)]
  · rw [eq_of_parts zero]
    cases sign <;> decide
  · rw [eq_of_parts undefined]
    decide

/-- What is nearly zero is neither infinite nor undefined. -/
theorem isFinite_of_nearZero {value : Float} (small : Scalar.nearZero value = true) :
    Scalar.isFinite value = true := by
  rw [isFinite_iff]
  cases found : parts value with
  | zero sign => rfl
  | finite sign => rfl
  | infinity sign =>
      rw [eq_of_parts found] at small
      revert small
      cases sign <;> decide
  | notANumber =>
      rw [eq_of_parts found] at small
      revert small
      decide

/-- Two numbers are close if their difference is nearly zero. -/
theorem close_eq_nearZero (first second : Float) :
    Expression.close first second = Scalar.nearZero (first - second) := by
  rw [Bool.eq_iff_iff, Expression.close, decide_eq_true_iff, magnitude_le_epsilon_iff]

theorem close_comm (first second : Float) :
    Expression.close first second = Expression.close second first := by
  rw [close_eq_nearZero, close_eq_nearZero]
  rcases sub_swap first second with opposite | ⟨⟨_, zero⟩, _, otherZero⟩
  · rw [opposite, nearZero_neg]
  · rw [nearZero_of_zero zero, nearZero_of_zero otherZero]

end Closeness

end LinearProgram.Double
