import LinearProgram.Proofs.Double.Order

/-!
# Multiples of doubles

A product is rounded by shifting its significand until it fits.  One has a
significand with a single bit, so in a multiple by one the bits that are shifted
out are all zero, and nothing is rounded.  The sign of a product is that of its
factors, however it is rounded.
-/

namespace LinearProgram.Double

open Float.Model (UnpackedFloat Format totalExponent)
open Float.Model.UnpackedFloat (Sign ExtendedMantissa Accuracy)

/-- Nothing is lost where only zeros are shifted out. -/
private theorem shift_zeros (significand count : Nat) :
    (⟨significand * 2 ^ count, false, false⟩ : ExtendedMantissa) >>> count =
      ⟨significand, false, false⟩ := by
  change Nat.repeat ExtendedMantissa.shiftRightOne count _ = _
  induction count generalizing significand with
  | zero => simp [Nat.repeat]
  | succ count induction =>
      have doubled : significand * 2 ^ (count + 1) = significand * 2 * 2 ^ count := by
        rw [Nat.pow_succ, Nat.mul_assoc, Nat.mul_comm 2]
      rw [Nat.repeat, doubled, induction]
      simp [ExtendedMantissa.shiftRightOne]

/-- The exponent to which canonical parts are rounded is their own. -/
private theorem targetExponent_eq {significand : Nat} {exponent : Int}
    (positive : 0 < significand) (fits : significand < 2 ^ 53)
    (least : -1074 ≤ exponent)
    (full : 2 ^ 52 ≤ significand ∨ exponent = -1074) :
    Format.binary64.targetExponent (totalExponent significand exponent) =
      exponent := by
  have below : significand.log2 < 53 :=
    (Nat.log2_lt (Nat.ne_of_gt positive)).mpr fits
  have above : 52 ≤ significand.log2 ∨ exponent = -1074 := by
    rcases full with bits | last
    · exact .inl ((Nat.le_log2 (Nat.ne_of_gt positive)).mpr bits)
    · exact .inr last
  simp only [Format.targetExponent, totalExponent, Format.mantissaBits,
    Format.minExponent]
  omega

/-- One more factor of two takes the place of one in the exponent. -/
private theorem totalExponent_shifted {significand : Nat} (count : Nat)
    (exponent : Int) (positive : 0 < significand) :
    totalExponent (significand * 2 ^ count) (exponent - count) =
      totalExponent significand exponent := by
  have bits : (significand * 2 ^ count).log2 = significand.log2 + count := by
    have present := Nat.ne_of_gt positive
    have shifted : significand * 2 ^ count ≠ 0 := by positivity
    rw [Nat.log2_eq_iff shifted, Nat.pow_add, Nat.add_right_comm, Nat.pow_add]
    constructor
    · exact Nat.mul_le_mul_right _ (Nat.log2_self_le present)
    · exact Nat.mul_lt_mul_of_pos_right Nat.lt_log2_self (by positivity)
  rw [totalExponent, totalExponent, bits]
  omega

private theorem round_shifted (sign : Sign) {significand : Nat} {exponent : Int}
    (positive : 0 < significand) (fits : significand < 2 ^ 53)
    (least : -1074 ≤ exponent)
    (full : 2 ^ 52 ≤ significand ∨ exponent = -1074) (count : Nat) :
    UnpackedFloat.roundWithAccuracy .binary64 sign (significand * 2 ^ count)
        (exponent - count) .exact =
      .finite sign significand exponent positive := by
  have target := targetExponent_eq positive fits least full
  have first : UnpackedFloat.shiftToTargetExponent .binary64
      (significand * 2 ^ count) (exponent - count) .exact =
        (⟨significand, false, false⟩, exponent) := by
    rw [UnpackedFloat.shiftToTargetExponent, totalExponent_shifted _ _ positive,
      target, UnpackedFloat.shiftToExponent]
    have amount : (exponent - (exponent - (count : Int))).toNat = count := by omega
    rw [amount]
    simp only [ExtendedMantissa.ofMantissaAndAccuracy, shift_zeros]
    congr 1
    omega
  have second : UnpackedFloat.shiftToTargetExponent .binary64 significand
      exponent .exact = (⟨significand, false, false⟩, exponent) := by
    rw [UnpackedFloat.shiftToTargetExponent, target,
      UnpackedFloat.shiftToExponent]
    simp [ExtendedMantissa.ofMantissaAndAccuracy, HShiftRight.hShiftRight,
      Nat.repeat]
  have rounded : ExtendedMantissa.roundedMantissa ⟨significand, false, false⟩ =
      significand := rfl
  simp only [UnpackedFloat.roundWithAccuracy, first, rounded, second,
    Nat.ne_of_gt positive, dif_neg, not_false_eq_true]

private theorem parts_one : parts 1 =
    .finite .positive (2 ^ 52) (-52) (by decide) := by
  have one : (1 : Float) =
      ofParts (.finite .positive (2 ^ 52) (-52) (by decide)) := by decide
  rw [one]
  exact parts_ofParts ⟨by decide, by decide, by decide, .inl (by decide)⟩

/-- One is neutral for the product, whatever the other factor is. -/
protected theorem mul_one (value : Float) : value * 1 = value := by
  have product : value * 1 =
      ofParts (.mul .binary64 (parts value) (parts 1)) := rfl
  rw [product, parts_one]
  refine Eq.trans ?_ (ofParts_parts value)
  congr 1
  have canonical := canonical_parts value
  have neutral : ∀ sign : Sign, sign * .positive = sign := by
    intro sign
    cases sign <;> rfl
  cases found : parts value with
  | notANumber => rfl
  | infinity sign => cases sign <;> rfl
  | zero sign => cases sign <;> rfl
  | finite sign significand exponent positive =>
      rw [found] at canonical
      obtain ⟨fits, least, _, full⟩ := canonical
      change UnpackedFloat.roundWithAccuracy .binary64 (sign * .positive)
        (significand * 2 ^ 52) (exponent - (52 : Nat)) .exact = _
      rw [neutral]
      exact round_shifted sign positive fits least full 52

section Signs

private theorem mulParts_neg (unpacked other : UnpackedFloat) :
    UnpackedFloat.mul .binary64 unpacked other.neg =
      (UnpackedFloat.mul .binary64 unpacked other).neg := by
  have signs : ∀ sign other : Sign, sign * -other = -(sign * other) := by
    intro sign other
    cases sign <;> cases other <;> rfl
  cases other with
  | notANumber => cases unpacked <;> rfl
  | infinity sign =>
      cases unpacked <;> simp only [UnpackedFloat.neg, UnpackedFloat.mul, signs]
  | zero sign =>
      cases unpacked <;> simp only [UnpackedFloat.neg, UnpackedFloat.mul, signs]
  | finite sign significand exponent positive =>
      cases unpacked with
      | finite =>
          simp only [UnpackedFloat.neg, UnpackedFloat.mul, signs,
            UnpackedFloat.roundWithAccuracy]
          split <;> rfl
      | _ => simp only [UnpackedFloat.neg, UnpackedFloat.mul, signs]

/-- A product changes its sign with a factor. -/
protected theorem mul_neg (first second : Float) : first * -second = -(first * second) := by
  have product : first * -second =
      ofParts (.mul .binary64 (parts first) (parts (-second))) := rfl
  rw [product, parts_neg, mulParts_neg, ofParts_neg]
  rfl

protected theorem mul_neg_one (value : Float) : value * (-1) = -value := by
  rw [Double.mul_neg, Double.mul_one]

private theorem mulParts_comm (unpacked other : UnpackedFloat) :
    UnpackedFloat.mul .binary64 unpacked other =
      UnpackedFloat.mul .binary64 other unpacked := by
  have signs : ∀ sign other : Sign, sign * other = other * sign := by
    intro sign other
    cases sign <;> cases other <;> rfl
  cases unpacked <;> cases other <;>
    simp only [UnpackedFloat.mul, signs, Nat.mul_comm, Int.add_comm]

/-- The order of two factors does not matter, whatever they are. -/
protected theorem mul_comm (first second : Float) : first * second = second * first :=
  congrArg ofParts (mulParts_comm (parts first) (parts second))

protected theorem one_mul (value : Float) : 1 * value = value := by
  rw [Double.mul_comm, Double.mul_one]

/-- Zero times a finite number is a zero. -/
private theorem zero_mul_cases {value : Float} (finite : Scalar.isFinite value = true) :
    ∃ sign, 0 * value = ofParts (.zero sign) := by
  have product : 0 * value = ofParts (.mul .binary64 (parts 0) (parts value)) := rfl
  rw [isFinite_iff] at finite
  rw [product, parts_zero]
  cases found : parts value with
  | notANumber => rw [found] at finite; cases finite
  | infinity sign => rw [found] at finite; cases finite
  | zero sign => exact ⟨_, rfl⟩
  | finite sign => exact ⟨_, rfl⟩

theorem isFinite_zero_mul {value : Float} (finite : Scalar.isFinite value = true) :
    Scalar.isFinite (0 * value) = true := by
  obtain ⟨sign, zero⟩ := zero_mul_cases finite
  rw [zero]
  cases sign <;> decide

/-- Zero times a finite number vanishes in a sum with zero. -/
theorem zero_add_zero_mul {value : Float} (finite : Scalar.isFinite value = true) :
    0 + 0 * value = 0 := by
  obtain ⟨sign, zero⟩ := zero_mul_cases finite
  rw [zero]
  cases sign <;> decide

end Signs

end LinearProgram.Double
