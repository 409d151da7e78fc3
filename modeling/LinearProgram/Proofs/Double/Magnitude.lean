import LinearProgram.Proofs.Double.Difference
import LinearProgram.Proofs.Double.Equality
import LinearProgram.Proofs.Double.Extremes

/-!
# Magnitudes and positive parts

The larger of a double and zero is its positive part, and the larger of a double
and its opposite is its magnitude.  Both are zero exactly on one side of zero, or at
zero, and undefined exactly where the double is.  Neither shows the sign of a
zero, so both come out the same for the two differences of a pair.
-/

namespace LinearProgram.Double

open Float.Model (UnpackedFloat)
open Float.Model.UnpackedFloat (Sign)

variable {value : Float}

theorem eq_ofParts {unpacked : UnpackedFloat} (found : parts value = unpacked) :
    value = ofParts unpacked := by
  rw [← found, ofParts_parts]

theorem isUndefined_neg (value : Float) :
    Scalar.isUndefined (-value) = Scalar.isUndefined value := by
  rw [Bool.eq_iff_iff, isUndefined_iff, isUndefined_iff, parts_neg]
  cases parts value <;> simp [UnpackedFloat.neg]

theorem isUndefined_of_neg (negative : value < 0) : Scalar.isUndefined value = false :=
  isUndefined_eq_false_iff.mpr (defined_of_le (le_of_lt negative)).1

theorem beq_zero_of_pos (positive : 0 < value) : (value == 0) = false := by
  rw [← Bool.not_eq_true]
  exact fun same => not_le_of_lt positive (le_of_beq same)

theorem beq_zero_of_neg (negative : value < 0) : (value == 0) = false := by
  rw [← Bool.not_eq_true]
  exact fun same => not_le_of_lt negative (le_of_beq (Double.beq_comm same))

theorem neg_le_zero_iff : -value ≤ 0 ↔ 0 ≤ value := by
  rw [le_iff, le_iff, parts_neg, parts_zero]
  cases parts value with
  | notANumber => rfl
  | infinity sign => cases sign <;> rfl
  | zero sign => cases sign <;> rfl
  | finite sign => cases sign <;> rfl

section Positive

theorem larger_zero_of_neg (negative : value < 0) : Scalar.larger value 0 = 0 := by
  rw [Scalar.larger, if_pos negative]

theorem larger_zero_of_pos (positive : 0 < value) : Scalar.larger value 0 = value := by
  rw [Scalar.larger, if_neg (not_lt_of_lt positive), if_pos positive]

theorem larger_zero_of_zero {sign : Sign} (zero : parts value = .zero sign) :
    Scalar.larger value 0 = 0 := by
  rw [eq_ofParts zero]
  cases sign <;> decide

theorem larger_zero_of_undefined (undefined : parts value = .notANumber) :
    Scalar.larger value 0 = value := by
  rw [eq_ofParts undefined]
  decide

/-- A positive part is zero if there is nothing positive. -/
theorem larger_zero_beq_zero :
    (Scalar.larger value 0 == 0) = true ↔ value ≤ 0 := by
  rcases sign_cases value with negative | positive | ⟨sign, zero⟩ | undefined
  · rw [larger_zero_of_neg negative]
    exact ⟨fun _ => le_of_lt negative, fun _ => by decide⟩
  · rw [larger_zero_of_pos positive]
    exact ⟨le_of_beq, fun ordered => absurd ordered (not_le_of_lt positive)⟩
  · rw [eq_ofParts zero]
    cases sign <;> decide
  · rw [eq_ofParts undefined]
    decide

theorem isUndefined_larger_zero :
    Scalar.isUndefined (Scalar.larger value 0) = Scalar.isUndefined value := by
  rcases sign_cases value with negative | positive | ⟨sign, zero⟩ | undefined
  · rw [larger_zero_of_neg negative, isUndefined_of_neg negative]
    decide
  · rw [larger_zero_of_pos positive]
  · rw [eq_ofParts zero]
    cases sign <;> decide
  · rw [larger_zero_of_undefined undefined]

end Positive

section Magnitude

theorem magnitude_of_neg (negative : value < 0) : Scalar.magnitude value = -value := by
  rw [Scalar.magnitude, Scalar.larger, if_pos (lt_neg_of_neg negative)]

theorem magnitude_of_pos (positive : 0 < value) : Scalar.magnitude value = value := by
  have order := neg_lt_of_pos positive
  rw [Scalar.magnitude, Scalar.larger, if_neg (not_lt_of_lt order), if_pos order]

theorem magnitude_of_zero {sign : Sign} (zero : parts value = .zero sign) :
    Scalar.magnitude value = 0 := by
  rw [eq_ofParts zero]
  cases sign <;> decide

theorem magnitude_of_undefined (undefined : parts value = .notANumber) :
    Scalar.magnitude value = value := by
  rw [eq_ofParts undefined]
  decide

theorem magnitude_neg (value : Float) :
    Scalar.magnitude (-value) = Scalar.magnitude value := by
  rcases sign_cases value with negative | positive | ⟨sign, zero⟩ | undefined
  · rw [magnitude_of_neg negative, magnitude_of_pos (neg_pos_of_neg negative)]
  · rw [magnitude_of_pos positive, magnitude_of_neg (neg_neg_of_pos positive),
      Double.neg_neg]
  · rw [eq_ofParts zero]
    cases sign <;> decide
  · rw [eq_ofParts undefined]
    decide

theorem magnitude_beq_zero :
    (Scalar.magnitude value == 0) = (value == 0) := by
  rcases sign_cases value with negative | positive | ⟨sign, zero⟩ | undefined
  · rw [magnitude_of_neg negative, beq_zero_of_neg negative,
      beq_zero_of_pos (neg_pos_of_neg negative)]
  · rw [magnitude_of_pos positive]
  · rw [eq_ofParts zero]
    cases sign <;> decide
  · rw [magnitude_of_undefined undefined]

theorem isUndefined_magnitude :
    Scalar.isUndefined (Scalar.magnitude value) = Scalar.isUndefined value := by
  rcases sign_cases value with negative | positive | ⟨sign, zero⟩ | undefined
  · rw [magnitude_of_neg negative, isUndefined_neg]
  · rw [magnitude_of_pos positive]
  · rw [eq_ofParts zero]
    cases sign <;> decide
  · rw [magnitude_of_undefined undefined]

end Magnitude

end LinearProgram.Double
