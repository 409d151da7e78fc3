import LinearProgram.Proofs.Decimal.Interval
import LinearProgram.Proofs.Decimal.ReadBack
import LinearProgram.Proofs.Double.Binary

/-!
# Texts of doubles

The text of a finite double tells the double, up to the sign of zero: its
digits are read as a rational that rounds to this double and to no other.
-/

namespace LinearProgram.Double

open Float.Model (UnpackedFloat Format)
open Float.Model.UnpackedFloat (Sign)
open Decimal (Binary)

section Binary

variable {value : Float} {sign : Sign} {significand : Nat} {exponent : Int}
  {positive : 0 < significand}

/-- The magnitude of a double has the form of a binary value. -/
theorem canonical_ofBits
    (found : parts value = .finite sign significand exponent positive) :
    (Binary.ofBits value.toBits).Canonical := by
  have canonical := canonical_parts value
  rw [found] at canonical
  obtain ⟨bounded, least, _, full⟩ := canonical
  obtain ⟨significands, exponents, narrow⟩ := ofBits_of_parts found
  constructor
  case positive => rwa [significands]
  case bounded => rwa [significands]
  case least => rwa [exponents]
  case full => rwa [significands, exponents]
  case narrow => rwa [significands, exponents]

end Binary

section Written

variable {value other : Float}

/-- The sign that is written before a number. -/
def signText : Sign → String
  | .negative => "-"
  | .positive => ""

theorem doubleText_zero {sign : Sign} (found : parts value = .zero sign) :
    doubleText value = "0" := by
  have notNaN : value.isNaN = false := by
    change (parts value).isNaN = false
    rw [found]
    rfl
  have zero : (value == 0) = true := by
    rw [beq_iff, found, parts_zero]
    cases sign <;> simp
  simp only [doubleText, notNaN, zero, if_true]
  rfl

theorem doubleText_finite {sign : Sign} {significand : Nat} {exponent : Int}
    {positive : 0 < significand}
    (found : parts value = .finite sign significand exponent positive) :
    doubleText value = signText sign ++
      doubleNotation.write (Binary.ofBits value.toBits).shortest := by
  have notNaN : value.isNaN = false := by
    change (parts value).isNaN = false
    rw [found]
    rfl
  have finite : value.isInf = false := by
    change (parts value).isInf = false
    rw [found]
    rfl
  have nonzero : ¬(value == 0) = true := by
    rw [beq_iff, found, parts_zero]
    simp
  have negative : value < 0 ↔ sign = .negative := by
    rw [lt_iff, found, parts_zero]
    cases sign
    · exact iff_of_true rfl rfl
    · exact iff_of_false nofun nofun
  simp only [doubleText, notNaN, finite, if_neg nonzero]
  cases sign with
  | negative =>
      rw [if_pos (negative.mpr rfl)]
      rfl
  | positive =>
      rw [if_neg (fun below => nomatch negative.mp below)]
      simp [signText]

private theorem write_ne_zero {binary : Binary} (positive : 0 < binary.significand) :
    doubleNotation.write binary.shortest ≠ "0" := by
  intro zero
  obtain ⟨count, exponent, read, number⟩ := doubleNotation.unsigned?_write false
    (Decimal.Binary.proper_shortest positive)
  have zeroRead : Text.Numeral.unsigned? false "0".toList =
      some (.decimal false 0 0) := by
    decide
  rw [zero, zeroRead] at read
  cases read
  have above := (Decimal.Binary.rounds_shortest positive).pos positive
  rw [← number] at above
  norm_num at above

private theorem signs_eq {sign otherSign : Sign} {body otherBody : String}
    (bodyStarts : ∃ digit rest, body.toList = digit :: rest ∧
      digit.isDigit = true)
    (otherStarts : ∃ digit rest, otherBody.toList = digit :: rest ∧
      digit.isDigit = true)
    (same : signText sign ++ body = signText otherSign ++ otherBody) :
    sign = otherSign ∧ body = otherBody := by
  obtain ⟨digit, rest, bodyEq, numeric⟩ := bodyStarts
  obtain ⟨otherDigit, otherRest, otherEq, otherNumeric⟩ := otherStarts
  have characters := congrArg String.toList same
  rw [String.toList_append, String.toList_append] at characters
  cases sign with
  | negative =>
      cases otherSign with
      | negative =>
          have bodies := List.append_cancel_left characters
          exact ⟨rfl, String.toList_injective bodies⟩
      | positive =>
          rw [otherEq] at characters
          cases characters
          cases otherNumeric
  | positive =>
      cases otherSign with
      | negative =>
          rw [bodyEq] at characters
          cases characters
          cases numeric
      | positive =>
          have bodies := List.append_cancel_left characters
          exact ⟨rfl, String.toList_injective bodies⟩

section Finite

variable {sign otherSign : Sign} {significand otherSignificand : Nat}
  {exponent otherExponent : Int} {positive : 0 < significand}
  {otherPositive : 0 < otherSignificand}

theorem significand_ofBits_pos
    (found : parts value = .finite sign significand exponent positive) :
    0 < (Binary.ofBits value.toBits).significand :=
  (canonical_ofBits found).positive

private theorem body_starts
    (found : parts value = .finite sign significand exponent positive) :
    ∃ digit rest, (doubleNotation.write
        (Binary.ofBits value.toBits).shortest).toList = digit :: rest ∧
      digit.isDigit = true :=
  doubleNotation.exists_first_digit
    (Decimal.Binary.proper_shortest (significand_ofBits_pos found))

private theorem doubleText_ne_zero
    (found : parts value = .finite sign significand exponent positive) :
    doubleText value ≠ "0" := by
  intro zero
  rw [doubleText_finite found] at zero
  have unsigned : "0" = signText .positive ++ "0" := rfl
  have bodies := signs_eq (body_starts found) ⟨'0', [], rfl, rfl⟩
    (zero.trans unsigned)
  exact write_ne_zero (significand_ofBits_pos found) bodies.2

/-- The text tells the parts of a double other than zero. -/
private theorem parts_eq_of_doubleText_eq
    (found : parts value = .finite sign significand exponent positive)
    (otherFound : parts other =
      .finite otherSign otherSignificand otherExponent otherPositive)
    (same : doubleText value = doubleText other) : parts value = parts other := by
  rw [doubleText_finite found, doubleText_finite otherFound] at same
  obtain ⟨rfl, bodies⟩ := signs_eq (body_starts found) (body_starts otherFound) same
  have positive := significand_ofBits_pos found
  have otherPositive := significand_ofBits_pos otherFound
  have numbers := doubleNotation.toRat_eq_of_write_eq
    (Decimal.Binary.proper_shortest positive)
    (Decimal.Binary.proper_shortest otherPositive) bodies
  have rounds := Decimal.Binary.rounds_shortest positive
  rw [numbers] at rounds
  have magnitudes := (canonical_ofBits found).eq_of_rounds
    (canonical_ofBits otherFound) rounds
    (Decimal.Binary.rounds_shortest otherPositive)
  obtain ⟨significands, exponents, _⟩ := ofBits_of_parts found
  obtain ⟨otherSignificands, otherExponents, _⟩ := ofBits_of_parts otherFound
  rw [magnitudes] at significands exponents
  rw [found, otherFound]
  congr 1
  · exact significands.symm.trans otherSignificands
  · exact exponents.symm.trans otherExponents

end Finite

theorem beq_of_parts_eq (finite : Scalar.isFinite value = true)
    (same : parts value = parts other) : (value == other) = true := by
  have defined := defined_of_isFinite finite
  have otherDefined : parts other ≠ .notANumber := by
    rw [← same]
    exact defined
  exact beq_iff.mpr ⟨defined, otherDefined, .inl same⟩

/-- Finite doubles with one text compare as equal. -/
theorem beq_of_doubleText_eq (finite : Scalar.isFinite value = true)
    (otherFinite : Scalar.isFinite other = true)
    (same : doubleText value = doubleText other) : (value == other) = true := by
  have partsFinite := isFinite_iff.mp finite
  have otherPartsFinite := isFinite_iff.mp otherFinite
  cases found : parts value with
  | notANumber => rw [found] at partsFinite; cases partsFinite
  | infinity sign => rw [found] at partsFinite; cases partsFinite
  | zero sign =>
      cases otherFound : parts other with
      | notANumber => rw [otherFound] at otherPartsFinite; cases otherPartsFinite
      | infinity sign => rw [otherFound] at otherPartsFinite; cases otherPartsFinite
      | zero otherSign =>
          rw [beq_iff, found, otherFound]
          cases sign <;> cases otherSign <;> simp
      | finite otherSign significand exponent positive =>
          rw [doubleText_zero found] at same
          exact absurd same.symm (doubleText_ne_zero otherFound)
  | finite sign significand exponent positive =>
      cases otherFound : parts other with
      | notANumber => rw [otherFound] at otherPartsFinite; cases otherPartsFinite
      | infinity sign => rw [otherFound] at otherPartsFinite; cases otherPartsFinite
      | zero otherSign =>
          rw [doubleText_zero otherFound] at same
          exact absurd same (doubleText_ne_zero found)
      | finite otherSign otherSignificand otherExponent otherPositive =>
          exact beq_of_parts_eq finite
            (parts_eq_of_doubleText_eq found otherFound same)

/-- The characters of the text of a finite double. -/
theorem mem_doubleText (finite : Scalar.isFinite value = true) {character : Char}
    (membership : character ∈ (doubleText value).toList) :
    character.isDigit = true ∨ character ∈ ['.', 'e', '+', '-'] := by
  rw [isFinite_iff] at finite
  cases found : parts value with
  | notANumber => rw [found] at finite; cases finite
  | infinity sign => rw [found] at finite; cases finite
  | zero sign =>
      rw [doubleText_zero found] at membership
      rw [List.mem_singleton.mp membership]
      exact .inl rfl
  | finite sign significand exponent positive =>
      rw [doubleText_finite found, String.toList_append, List.mem_append]
        at membership
      rcases membership with before | body
      · cases sign with
        | negative =>
            rw [List.mem_singleton.mp before]
            exact .inr (by decide)
        | positive => cases before
      · exact doubleNotation.mem_write
          (Decimal.Binary.proper_shortest (significand_ofBits_pos found)) body

end Written

end LinearProgram.Double
