import LinearProgram.Scalar.Double
import Mathlib

/-!
# The parts of a double

A double is a sign, a significand and an exponent, or one of the special
values.  Its operations take the parts apart, compute, and put them together
again.  Only canonical parts survive that round trip: those whose significand
fills its bits unless the exponent is the least one.

`parts_ofParts` is the round trip.  The equations after it say what negation
and the comparisons do to the parts.
-/

namespace LinearProgram.Double

open Float.Model (UnpackedFloat Format)
open Float.Model.UnpackedFloat (Sign)

/-- The parts of a double. -/
def parts (value : Float) : UnpackedFloat := value.toModel.unpack

/-- The double with these parts. -/
def ofParts (unpacked : UnpackedFloat) : Float :=
  .ofModel (.pack unpacked)

/-- Parts as a double has them. -/
def Canonical : UnpackedFloat → Prop
  | .finite _ significand exponent _ =>
      significand < 2 ^ 53 ∧ -1074 ≤ exponent ∧ exponent ≤ 971 ∧
        (2 ^ 52 ≤ significand ∨ exponent = -1074)
  | _ => True

section RoundTrip

variable (bits : BitVec Format.binary64.numBits)

theorem toNat_implicitBit (fraction : BitVec 52) :
    (1#1 ++ fraction).toNat = 2 ^ 52 + fraction.toNat := by
  rw [BitVec.toNat_append, ← Nat.shiftLeft_add_eq_or_of_lt fraction.isLt,
    Nat.shiftLeft_eq]
  simp

private theorem toNat_lt_of_ne_allOnes {exponent : BitVec 11}
    (different : exponent ≠ -1#11) : exponent.toNat < 2047 := by
  have bound := exponent.isLt
  have apart : exponent.toNat ≠ 2047 := by
    intro equality
    exact different (BitVec.eq_of_toNat_eq (by simpa using equality))
  omega

theorem toNat_pos_of_ne_zero {exponent : BitVec 11}
    (different : exponent ≠ 0#11) : 0 < exponent.toNat := by
  have apart : exponent.toNat ≠ 0 := by
    intro equality
    exact different (BitVec.eq_of_toNat_eq (by simpa using equality))
  omega

private theorem canonical_unpack :
    Canonical (UnpackedFloat.unpack .binary64 bits) := by
  have fractionBound :
      (@UnpackedFloat.unpackMantissa .binary64 bits).toNat < 2 ^ 52 :=
    (UnpackedFloat.unpackMantissa bits).isLt
  have bias : Format.binary64.exponentBias = 1023 := rfl
  simp only [UnpackedFloat.unpack, bias]
  split
  · split <;> trivial
  · rename_i notSpecial
    have exponentBound := toNat_lt_of_ne_allOnes notSpecial
    split
    · rename_i subnormal
      split
      · trivial
      · rw [subnormal]
        exact ⟨by omega, by simp, by simp, Or.inr (by simp)⟩
    · rename_i normal
      have exponentPositive := toNat_pos_of_ne_zero normal
      have withImplicit := toNat_implicitBit (UnpackedFloat.unpackMantissa bits)
      exact ⟨by omega, by omega, by omega, Or.inl (by omega)⟩

theorem canonical_parts (value : Float) : Canonical (parts value) :=
  canonical_unpack _

private theorem unpack_packComponents (sign : Sign)
    (exponent : BitVec 11) (fraction : BitVec 52) :
    UnpackedFloat.unpack .binary64
        (UnpackedFloat.packComponents .binary64 sign exponent fraction) =
      if exponent = -1#11 then
        if fraction = 0#52 then .infinity sign else .notANumber
      else if exponent = 0#11 then
        if zero : fraction = 0#52 then .zero sign
        else .finite sign fraction.toNat (-1074)
          (by simpa [BitVec.toNat_pos, BitVec.pos_iff_ne_zero] using zero)
      else .finite sign (2 ^ 52 + fraction.toNat) (exponent.toNat - 1075)
        (by omega) := by
  simp only [UnpackedFloat.unpack, UnpackedFloat.unpackMantissa_packComponents,
    UnpackedFloat.unpackExponent_packComponents,
    UnpackedFloat.unpackSign_packComponents, Sign.ofBitVec_toBitVec,
    toNat_implicitBit]
  split
  · rfl
  · split
    · rename_i subnormal
      subst subnormal
      rfl
    · rfl

private theorem pack_subnormal (sign : Sign) {significand : Nat}
    (positive : 0 < significand) (small : significand < 2 ^ 52) :
    UnpackedFloat.pack .binary64 (.finite sign significand (-1074) positive) =
      UnpackedFloat.packComponents .binary64 sign 0#11
        (BitVec.ofNat 52 significand) := by
  have bits : significand.log2 < 52 := (Nat.log2_lt (by omega)).mpr small
  have notFull : significand.log2 + 1 ≠ Format.binary64.mantissaBits := by
    change significand.log2 + 1 ≠ 1 + 52
    omega
  have inRange : ¬2 ^ Format.binary64.exponentBits ≤
      ((-1074 : Int) + Format.binary64.exponentBias +
        Format.binary64.mantissaBitsWithoutImplicit).toNat + 1 := by decide
  simp only [UnpackedFloat.pack, if_neg inRange, if_neg notFull]

private theorem unpack_pack_subnormal (sign : Sign) {significand : Nat}
    (positive : 0 < significand) (small : significand < 2 ^ 52) :
    UnpackedFloat.unpack .binary64
        (UnpackedFloat.pack .binary64
          (.finite sign significand (-1074) positive)) =
      .finite sign significand (-1074) positive := by
  have fraction : BitVec.ofNat 52 significand ≠ 0#52 := by
    intro equality
    have zero := congrArg BitVec.toNat equality
    rw [BitVec.toNat_ofNat, Nat.mod_eq_of_lt small] at zero
    change significand = 0 at zero
    omega
  rw [pack_subnormal sign positive small, unpack_packComponents,
    if_neg (by decide), if_pos rfl, dif_neg fraction]
  simp only [BitVec.toNat_ofNat, Nat.mod_eq_of_lt small]

private theorem finite_congr {sign : Sign} {significand otherSignificand : Nat}
    {exponent otherExponent : Int} {positive : 0 < significand}
    {otherPositive : 0 < otherSignificand}
    (significands : significand = otherSignificand)
    (exponents : exponent = otherExponent) :
    UnpackedFloat.finite sign significand exponent positive =
      .finite sign otherSignificand otherExponent otherPositive := by
  subst significands
  subst exponents
  rfl

private theorem pack_normal (sign : Sign) {significand : Nat} {exponent : Int}
    (positive : 0 < significand) (full : 2 ^ 52 ≤ significand)
    (below : significand < 2 ^ 53) (greatest : exponent ≤ 971) :
    UnpackedFloat.pack .binary64 (.finite sign significand exponent positive) =
      UnpackedFloat.packComponents .binary64 sign
        (BitVec.ofNat 11 (exponent + 1075).toNat)
        (BitVec.ofNat 52 significand) := by
  have bits : significand.log2 = 52 :=
    (Nat.log2_eq_iff (by omega)).mpr ⟨full, below⟩
  have isFull : significand.log2 + 1 = Format.binary64.mantissaBits := by
    rw [bits]
    rfl
  have biased : (exponent + Format.binary64.exponentBias +
      Format.binary64.mantissaBitsWithoutImplicit).toNat =
        (exponent + 1075).toNat := by
    change (exponent + 1023 + 52).toNat = (exponent + 1075).toNat
    omega
  have inRange : ¬2 ^ Format.binary64.exponentBits ≤
      (exponent + 1075).toNat + 1 := by
    change ¬2 ^ 11 ≤ (exponent + 1075).toNat + 1
    omega
  simp only [UnpackedFloat.pack, biased, if_neg inRange, if_pos isFull]

private theorem unpack_pack_normal (sign : Sign) {significand : Nat}
    {exponent : Int} (positive : 0 < significand)
    (full : 2 ^ 52 ≤ significand) (below : significand < 2 ^ 53)
    (least : -1074 ≤ exponent) (greatest : exponent ≤ 971) :
    UnpackedFloat.unpack .binary64
        (UnpackedFloat.pack .binary64
          (.finite sign significand exponent positive)) =
      .finite sign significand exponent positive := by
  have field : (BitVec.ofNat 11 (exponent + 1075).toNat).toNat =
      (exponent + 1075).toNat := by
    rw [BitVec.toNat_ofNat, Nat.mod_eq_of_lt (by omega)]
  have fraction : (BitVec.ofNat 52 significand).toNat =
      significand - 2 ^ 52 := by
    rw [BitVec.toNat_ofNat]
    omega
  have notSpecial : BitVec.ofNat 11 (exponent + 1075).toNat ≠ -1#11 := by
    intro equality
    have largest := congrArg BitVec.toNat equality
    rw [field] at largest
    change (exponent + 1075).toNat = 2047 at largest
    omega
  have notSubnormal : BitVec.ofNat 11 (exponent + 1075).toNat ≠ 0#11 := by
    intro equality
    have zero := congrArg BitVec.toNat equality
    rw [field] at zero
    change (exponent + 1075).toNat = 0 at zero
    omega
  rw [pack_normal sign positive full below greatest, unpack_packComponents,
    if_neg notSpecial, if_neg notSubnormal]
  exact finite_congr (by rw [fraction]; omega) (by rw [field]; omega)

theorem unpack_pack {unpacked : UnpackedFloat}
    (canonical : Canonical unpacked) :
    (Float.Model.pack unpacked).unpack = unpacked := by
  cases unpacked with
  | finite sign significand exponent positive =>
      obtain ⟨below, least, greatest, full | subnormal⟩ := canonical
      · exact unpack_pack_normal sign positive full below least greatest
      · subst subnormal
        by_cases small : significand < 2 ^ 52
        · exact unpack_pack_subnormal sign positive small
        · exact unpack_pack_normal sign positive (by omega) below
            (by omega) (by omega)
  | notANumber => rfl
  | infinity sign => cases sign <;> rfl
  | zero sign => cases sign <;> rfl

private theorem toBitVec_ofBitVec (bit : BitVec 1) :
    (Sign.ofBitVec bit).toBitVec = bit := by
  rcases BitVec.eq_zero_or_eq_one bit with rfl | rfl <;> rfl

private theorem toNat_packComponents (sign : Sign) (exponent : BitVec 11)
    (fraction : BitVec 52) :
    (UnpackedFloat.packComponents .binary64 sign exponent fraction).toNat =
      (sign.toBitVec.toNat * 2 ^ 11 + exponent.toNat) * 2 ^ 52 +
        fraction.toNat := by
  change ((sign.toBitVec ++ exponent) ++ fraction).toNat = _
  rw [BitVec.toNat_append, ← Nat.shiftLeft_add_eq_or_of_lt fraction.isLt,
    BitVec.toNat_append, ← Nat.shiftLeft_add_eq_or_of_lt exponent.isLt,
    Nat.shiftLeft_eq, Nat.shiftLeft_eq]

/-- A word is put together from its three fields. -/
private theorem packComponents_fields :
    UnpackedFloat.packComponents .binary64
        (.ofBitVec (UnpackedFloat.unpackSign bits))
        (UnpackedFloat.unpackExponent bits) (UnpackedFloat.unpackMantissa bits) =
      bits := by
  apply BitVec.eq_of_toNat_eq
  have bound : bits.toNat < 2 ^ 64 := bits.isLt
  rw [toNat_packComponents, toBitVec_ofBitVec]
  change (bits.toNat >>> 63 % 2 ^ 1 * 2 ^ 11 + bits.toNat >>> 52 % 2 ^ 11) *
    2 ^ 52 + bits.toNat >>> 0 % 2 ^ 52 = bits.toNat
  simp only [Nat.shiftRight_eq_div_pow]
  omega

/-- Packing parts with fields that were read gives these fields. -/
private theorem pack_unpack_packComponents (sign : Sign) (exponent : BitVec 11)
    (fraction : BitVec 52) (number : exponent = -1#11 → fraction = 0#52) :
    UnpackedFloat.pack .binary64 (UnpackedFloat.unpack .binary64
        (UnpackedFloat.packComponents .binary64 sign exponent fraction)) =
      UnpackedFloat.packComponents .binary64 sign exponent fraction := by
  have fractionBound : fraction.toNat < 2 ^ 52 := fraction.isLt
  rw [unpack_packComponents]
  split
  · rename_i special
    rw [special, number special, if_pos rfl]
    rfl
  · rename_i notSpecial
    split
    · rename_i subnormal
      rw [subnormal]
      split
      · rename_i zero
        rw [zero]
        rfl
      · rw [pack_subnormal sign _ fractionBound, BitVec.ofNat_toNat]
        rfl
    · have exponentBound := toNat_lt_of_ne_allOnes notSpecial
      have field : ((exponent.toNat : Int) - 1075 + 1075).toNat =
          exponent.toNat := by omega
      have implicit : BitVec.ofNat 52 (2 ^ 52 + fraction.toNat) = fraction := by
        apply BitVec.eq_of_toNat_eq
        rw [BitVec.toNat_ofNat]
        omega
      rw [pack_normal sign _ (by omega) (by omega) (by omega), field, implicit,
        BitVec.ofNat_toNat]
      rfl

theorem pack_unpack (valid : Format.binary64.Valid bits) :
    UnpackedFloat.pack .binary64 (UnpackedFloat.unpack .binary64 bits) = bits := by
  by_cases undefined : UnpackedFloat.unpackExponent bits = -1#11 ∧
      UnpackedFloat.unpackMantissa bits ≠ 0#52
  · rw [valid.eq_packedNaN undefined.1 undefined.2]
    rfl
  · have round := pack_unpack_packComponents
      (.ofBitVec (UnpackedFloat.unpackSign bits))
      (UnpackedFloat.unpackExponent bits) (UnpackedFloat.unpackMantissa bits)
      (fun special => not_not.mp (fun nonzero => undefined ⟨special, nonzero⟩))
    rw [packComponents_fields] at round
    exact round

end RoundTrip

theorem parts_ofParts {unpacked : UnpackedFloat}
    (canonical : Canonical unpacked) : parts (ofParts unpacked) = unpacked :=
  unpack_pack canonical

/-- A double is determined by its parts, an undefined one included. -/
theorem ofParts_parts (value : Float) : ofParts (parts value) = value := by
  obtain ⟨⟨bits, valid⟩⟩ := value
  have word := congrArg UInt64.ofBitVec (pack_unpack bits.toBitVec valid)
  simp only [ofParts, parts, Float.Model.pack, Float.Model.unpack, word]

theorem eq_of_parts_eq {first second : Float} (same : parts first = parts second) :
    first = second := by
  rw [← ofParts_parts first, same, ofParts_parts]

section Signs

/-- The sign has a field of its own; the other fields do not depend on it. -/
private theorem exists_fields (significand : Nat) (exponent : Int)
    (positive : 0 < significand) : ∃ field fraction, ∀ sign,
      UnpackedFloat.pack .binary64 (.finite sign significand exponent positive) =
        UnpackedFloat.packComponents .binary64 sign field fraction := by
  simp only [UnpackedFloat.pack]
  split
  · exact ⟨_, _, fun _ => rfl⟩
  · split
    · exact ⟨_, _, fun _ => rfl⟩
    · exact ⟨_, _, fun _ => rfl⟩

/-- Parts that are not canonical are packed alike with either sign. -/
theorem parts_ofParts_neg (unpacked : UnpackedFloat) :
    parts (ofParts unpacked.neg) = (parts (ofParts unpacked)).neg := by
  cases unpacked with
  | notANumber => rfl
  | infinity sign => cases sign <;> rfl
  | zero sign => cases sign <;> rfl
  | finite sign significand exponent positive =>
      obtain ⟨field, fraction, packs⟩ := exists_fields significand exponent positive
      change UnpackedFloat.unpack .binary64 (UnpackedFloat.pack .binary64 _) =
        (UnpackedFloat.unpack .binary64 (UnpackedFloat.pack .binary64 _)).neg
      rw [packs, UnpackedFloat.neg, packs, unpack_packComponents, unpack_packComponents]
      split
      · split <;> rfl
      · split
        · split <;> rfl
        · rfl

end Signs

/-- What is packed is undefined only if it was undefined before.  Parts that are
not canonical may become infinite. -/
theorem defined_ofParts {unpacked : UnpackedFloat}
    (defined : unpacked ≠ .notANumber) : parts (ofParts unpacked) ≠ .notANumber := by
  cases unpacked with
  | notANumber => exact absurd rfl defined
  | infinity sign => cases sign <;> exact nofun
  | zero sign => cases sign <;> exact nofun
  | finite sign significand exponent positive =>
      change UnpackedFloat.unpack .binary64 (UnpackedFloat.pack .binary64 _) ≠ _
      simp only [UnpackedFloat.pack]
      generalize (exponent + Format.binary64.exponentBias +
        Format.binary64.mantissaBitsWithoutImplicit).toNat = biased
      split
      · cases sign <;> exact nofun
      · rename_i inRange
        split
        · have apart : BitVec.ofNat 11 biased ≠ -1#11 := by
            intro same
            have number := congrArg BitVec.toNat same
            rw [BitVec.toNat_ofNat] at number
            change biased % 2 ^ 11 = 2047 at number
            change ¬2 ^ 11 ≤ biased + 1 at inRange
            omega
          change UnpackedFloat.unpack .binary64
            (UnpackedFloat.packComponents .binary64 sign (BitVec.ofNat 11 biased) _) ≠ _
          rw [unpack_packComponents, if_neg apart]
          split
          · split <;> exact nofun
          · exact nofun
        · rw [unpack_packComponents, if_neg (by decide), if_pos rfl]
          split <;> exact nofun

end LinearProgram.Double
