import LinearProgram.Proofs.Double.Order
import LinearProgram.Scalar.Exact

/-!
# Doubles read exactly

The bits of a double are read as a significand and an exponent, which are those
of its parts.  So a double is read as zero only if it is a zero.
-/

namespace LinearProgram.Double

open Float.Model (UnpackedFloat Format)
open Float.Model.UnpackedFloat (Sign)
open Decimal (Binary)

section Binary

variable {value : Float} {sign : Sign} {significand : Nat} {exponent : Int}
  {positive : 0 < significand}

private theorem toNat_exponent (bits : UInt64) :
    (@UnpackedFloat.unpackExponent Format.binary64 bits.toBitVec).toNat =
      ((bits >>> 52) &&& 0x7FF).toNat := by
  change bits.toNat >>> 52 % 2 ^ 11 = bits.toNat >>> 52 &&& 2 ^ 11 - 1
  rw [Nat.and_two_pow_sub_one_eq_mod]

private theorem toNat_fraction (bits : UInt64) :
    (@UnpackedFloat.unpackMantissa Format.binary64 bits.toBitVec).toNat =
      (bits &&& 0xFFFFFFFFFFFFF).toNat := by
  change bits.toNat >>> 0 % 2 ^ 52 = bits.toNat &&& 2 ^ 52 - 1
  rw [Nat.and_two_pow_sub_one_eq_mod, Nat.shiftRight_zero]

/-- The magnitude of a double is made of the same parts. -/
theorem ofBits_of_parts
    (found : parts value = .finite sign significand exponent positive) :
    (Binary.ofBits value.toBits).significand = significand ∧
      (Binary.ofBits value.toBits).exponent = exponent ∧
      ((Binary.ofBits value.toBits).narrowBelow = true ↔
        significand = 2 ^ 52 ∧ -1074 < exponent) := by
  change UnpackedFloat.unpack .binary64 value.toBits.toBitVec = _ at found
  have exponentField := toNat_exponent value.toBits
  have fractionField := toNat_fraction value.toBits
  have fractionBound :
      (@UnpackedFloat.unpackMantissa .binary64 value.toBits.toBitVec).toNat <
        2 ^ 52 := (UnpackedFloat.unpackMantissa _).isLt
  have bias : Format.binary64.exponentBias = 1023 := rfl
  simp only [UnpackedFloat.unpack, bias] at found
  split at found
  · split at found <;> cases found
  · split at found
    · rename_i subnormal
      split at found
      · cases found
      · obtain ⟨-, significands, exponents⟩ := UnpackedFloat.finite.inj found
        rw [subnormal] at exponentField exponents
        have zero : ((value.toBits >>> 52) &&& 0x7FF).toNat = 0 :=
          exponentField.symm
        simp only [Binary.ofBits, if_pos zero]
        refine ⟨by omega, exponents, ?_⟩
        change (-1074 : Int) = exponent at exponents
        simp
        omega
    · rename_i normal
      obtain ⟨-, significands, exponents⟩ := UnpackedFloat.finite.inj found
      have exponentPositive := toNat_pos_of_ne_zero normal
      have nonzero : ¬((value.toBits >>> 52) &&& 0x7FF).toNat = 0 := by omega
      rw [toNat_implicitBit] at significands
      simp only [Binary.ofBits, if_neg nonzero]
      refine ⟨by omega, by omega, ?_⟩
      simp only [Bool.and_eq_true, decide_eq_true_iff]
      omega

private theorem toRat_ne_zero {binary : Binary}
    (positive : 0 < binary.significand) : binary.toRat ≠ 0 := by
  simp only [Binary.toRat, Nat.pow_eq]
  rw [Ne, Rat.mkRat_eq_zero (by positivity)]
  positivity

private theorem doubleRational_ne_zero
    (found : parts value = .finite sign significand exponent positive) :
    doubleRational? value ≠ some 0 := by
  have nonzero : (Binary.ofBits value.toBits).toRat ≠ 0 := by
    apply toRat_ne_zero
    rw [(ofBits_of_parts found).1]
    exact positive
  have finite : value.isFinite = true := by
    change (parts value).isFinite = true
    rw [found]
    rfl
  rw [doubleRational?, if_pos finite]
  split
  · simpa using nonzero
  · simpa using nonzero

private theorem isFinite_of_doubleRational {number : Rat}
    (read : doubleRational? value = some number) :
    (parts value).isFinite = true := by
  rw [doubleRational?] at read
  split at read
  · assumption
  · cases read

/-- A double that is not nearly zero is not zero when it is read exactly. -/
theorem ofScalar_ne_zero (large : Scalar.nearZero value = false) :
    Exact.ofScalar value ≠ .finite 0 := by
  intro zero
  have rational : doubleRational? value = some 0 := by
    simp only [Exact.ofScalar] at zero
    split at zero
    · rename_i number read
      cases zero
      exact read
    · split at zero <;> cases zero
  have finite := isFinite_of_doubleRational rational
  cases found : parts value with
  | notANumber => rw [found] at finite; cases finite
  | infinity sign => rw [found] at finite; cases finite
  | zero sign =>
      rw [nearZero_of_zero found] at large
      cases large
  | finite sign significand exponent positive =>
      exact doubleRational_ne_zero found rational

end Binary

end LinearProgram.Double
