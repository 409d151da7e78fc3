import LinearProgram.Proofs.Double.Parts
import LinearProgram.Proofs.Scalar.Laws

/-!
# The order of doubles

Comparisons, negation, the difference of equal doubles and the sum with zero,
read off their parts.  With these, a double that is not nearly zero exceeds the
tolerance in magnitude and is its own sum with zero, and doubles that compare as
equal are close.
-/

namespace LinearProgram.Double

open Float.Model (UnpackedFloat Format)
open Float.Model.UnpackedFloat (Sign)

section Comparison

variable {first second : Float}

theorem lt_iff : first < second ↔
    (parts first).compare (parts second) = some .lt := by
  change decide (first.toModel < second.toModel) = true ↔ _
  rw [decide_eq_true_iff]
  change UnpackedFloat.lt _ _ = true ↔ _
  simp [UnpackedFloat.lt, parts]

theorem le_iff : first ≤ second ↔
    ((parts first).compare (parts second)).any Ordering.isLE = true := by
  change decide (first.toModel ≤ second.toModel) = true ↔ _
  rw [decide_eq_true_iff]
  rfl

theorem beq_iff : (first == second) = true ↔
    parts first ≠ .notANumber ∧ parts second ≠ .notANumber ∧
      (parts first = parts second ∨
        (parts first = .zero .positive ∧ parts second = .zero .negative) ∨
        (parts first = .zero .negative ∧ parts second = .zero .positive)) :=
  UnpackedFloat.beq_iff_ne_notANumber_and_eq _ _

theorem isFinite_iff : Scalar.isFinite first = true ↔
    (parts first).isFinite = true :=
  Iff.rfl

theorem defined_of_isFinite (finite : Scalar.isFinite first = true) :
    parts first ≠ .notANumber := by
  intro undefined
  rw [isFinite_iff, undefined] at finite
  cases finite

/-- The undefined number is the one without parts. -/
theorem isUndefined_iff :
    Scalar.isUndefined first = true ↔ parts first = .notANumber := by
  rw [Scalar.isUndefined, Bool.not_eq_true', ← Bool.not_eq_true, beq_iff]
  simp

theorem isUndefined_eq_false_iff :
    Scalar.isUndefined first = false ↔ parts first ≠ .notANumber := by
  rw [← Bool.not_eq_true, isUndefined_iff]

private theorem compare_fields_swap (exponent otherExponent : Int)
    (significand otherSignificand : Nat) :
    (compare otherExponent exponent).then
        (compare otherSignificand significand) =
      ((compare exponent otherExponent).then
        (compare significand otherSignificand)).swap := by
  rw [Ordering.swap_then, Int.compare_swap, Nat.compare_swap]

theorem compare_swap (first second : UnpackedFloat) :
    second.compare first = (first.compare second).map Ordering.swap := by
  cases first with
  | notANumber => cases second <;> rfl
  | infinity sign =>
      cases second with
      | infinity other => cases sign <;> cases other <;> rfl
      | _ => cases sign <;> rfl
  | zero sign =>
      cases second with
      | infinity other => cases other <;> rfl
      | finite other _ _ _ => cases other <;> rfl
      | _ => rfl
  | finite sign significand exponent positive =>
      cases second with
      | notANumber => cases sign <;> rfl
      | infinity other => cases sign <;> cases other <;> rfl
      | zero other => cases sign <;> rfl
      | finite other otherSignificand otherExponent otherPositive =>
          cases sign <;> cases other <;>
            simp only [UnpackedFloat.compare, Option.map_some,
              Ordering.swap_gt, Ordering.swap_lt,
              compare_fields_swap exponent otherExponent]

theorem compare_eq_none_iff {unpacked other : UnpackedFloat} :
    unpacked.compare other = none ↔
      unpacked = .notANumber ∨ other = .notANumber := by
  cases unpacked with
  | notANumber => simp [UnpackedFloat.compare]
  | infinity sign =>
      cases other with
      | infinity other => simp [UnpackedFloat.compare]
      | _ => cases sign <;> simp [UnpackedFloat.compare]
  | zero sign =>
      cases other with
      | infinity other => cases other <;> simp [UnpackedFloat.compare]
      | finite other _ _ _ => cases other <;> simp [UnpackedFloat.compare]
      | _ => simp [UnpackedFloat.compare]
  | finite sign _ _ _ =>
      cases other with
      | infinity other => cases other <;> simp [UnpackedFloat.compare]
      | zero other => cases sign <;> simp [UnpackedFloat.compare]
      | finite other _ _ _ =>
          cases sign <;> cases other <;> simp [UnpackedFloat.compare]
      | notANumber => cases sign <;> simp [UnpackedFloat.compare]

theorem le_of_lt {first second : Float} (below : first < second) :
    first ≤ second := by
  rw [lt_iff] at below
  rw [le_iff, below]
  rfl

theorem le_of_beq {first second : Float} (same : (first == second) = true) :
    first ≤ second := by
  have equal : (parts first).compare (parts second) = some .eq := by
    change ((parts first).compare (parts second) == some .eq) = true at same
    exact LawfulBEq.eq_of_beq same
  rw [le_iff, equal]
  rfl

/-- Only an undefined number is not comparable with itself. -/
theorem le_refl {value : Float} (defined : parts value ≠ .notANumber) :
    value ≤ value := by
  apply le_of_beq
  rw [beq_iff]
  exact ⟨defined, defined, .inl rfl⟩

theorem defined_of_le {first second : Float} (ordered : first ≤ second) :
    parts first ≠ .notANumber ∧ parts second ≠ .notANumber := by
  rw [← not_or, ← compare_eq_none_iff]
  intro none
  rw [le_iff, none] at ordered
  cases ordered

/-- Doubles that are not ordered in any way are not both defined. -/
theorem undefined_of_incomparable {first second : Float}
    (notBelow : ¬first < second) (notAbove : ¬second < first)
    (different : ¬(first == second) = true) :
    parts first = .notANumber ∨ parts second = .notANumber := by
  rw [← compare_eq_none_iff]
  cases order : (parts first).compare (parts second) with
  | none => rfl
  | some order' =>
      exfalso
      cases order' with
      | lt => exact notBelow (lt_iff.mpr order)
      | gt =>
          rw [lt_iff, compare_swap (parts first), order] at notAbove
          exact notAbove rfl
      | eq =>
          change ¬((parts first).compare (parts second) == some .eq) = true
            at different
          rw [order] at different
          exact different rfl

/-- Finite doubles are comparable. -/
theorem lt_of_not_le (firstFinite : Scalar.isFinite first = true)
    (secondFinite : Scalar.isFinite second = true)
    (notLe : ¬first ≤ second) : second < first := by
  rw [le_iff] at notLe
  rw [lt_iff, compare_swap (parts first)]
  rw [isFinite_iff] at firstFinite secondFinite
  obtain ⟨order, found⟩ : ∃ order,
      (parts first).compare (parts second) = some order := by
    rw [← Option.ne_none_iff_exists', Ne, compare_eq_none_iff]
    rintro (undefined | undefined)
    · rw [undefined] at firstFinite
      cases firstFinite
    · rw [undefined] at secondFinite
      cases secondFinite
  rw [found] at notLe ⊢
  cases order with
  | lt => exact absurd rfl notLe
  | eq => exact absurd rfl notLe
  | gt => rfl

end Comparison

section Negation

private theorem canonical_neg {unpacked : UnpackedFloat}
    (canonical : Canonical unpacked) : Canonical unpacked.neg := by
  cases unpacked <;> exact canonical

theorem parts_neg (value : Float) : parts (-value) = (parts value).neg :=
  parts_ofParts (canonical_neg (canonical_parts value))

theorem ofParts_neg (unpacked : UnpackedFloat) :
    ofParts unpacked.neg = -ofParts unpacked :=
  eq_of_parts_eq ((parts_ofParts_neg unpacked).trans (parts_neg _).symm)

protected theorem neg_neg (value : Float) : - -value = value := by
  apply eq_of_parts_eq
  rw [parts_neg, parts_neg]
  cases parts value with
  | notANumber => rfl
  | infinity sign => cases sign <;> rfl
  | zero sign => cases sign <;> rfl
  | finite sign => cases sign <;> rfl

theorem isFinite_neg (value : Float) :
    Scalar.isFinite (-value) = Scalar.isFinite value := by
  change (parts (-value)).isFinite = (parts value).isFinite
  rw [parts_neg]
  cases parts value <;> rfl

theorem compare_neg (unpacked other : UnpackedFloat) :
    other.neg.compare unpacked.neg = unpacked.compare other := by
  cases unpacked with
  | notANumber => cases other <;> rfl
  | infinity sign =>
      cases other with
      | infinity other => cases sign <;> cases other <;> rfl
      | _ => cases sign <;> rfl
  | zero sign =>
      cases other with
      | infinity other => cases other <;> rfl
      | finite other _ _ _ => cases other <;> rfl
      | _ => rfl
  | finite sign significand exponent positive =>
      cases other with
      | notANumber => cases sign <;> rfl
      | infinity other => cases sign <;> cases other <;> rfl
      | zero other => cases sign <;> rfl
      | finite other otherSignificand otherExponent otherPositive =>
          have fields := compare_fields_swap exponent otherExponent
            significand otherSignificand
          cases sign with
          | negative =>
              cases other with
              | negative => exact congrArg some fields
              | positive => rfl
          | positive =>
              cases other with
              | negative => rfl
              | positive =>
                  refine congrArg some ?_
                  rw [fields, Ordering.swap_swap]

theorem neg_le_neg {first second : Float} (ordered : first ≤ second) :
    -second ≤ -first := by
  rw [le_iff] at ordered ⊢
  rw [parts_neg, parts_neg, compare_neg]
  exact ordered

private theorem zero_eq : (0 : Float) = ofParts (.zero .positive) := by decide

theorem parts_zero : parts 0 = .zero .positive := by
  rw [zero_eq]
  exact parts_ofParts trivial

private theorem pos_iff {value : Float} : 0 < value ↔
    parts value = .infinity .positive ∨ ∃ significand exponent positive,
      parts value = .finite .positive significand exponent positive := by
  rw [lt_iff, parts_zero]
  cases parts value with
  | notANumber => simp [UnpackedFloat.compare]
  | zero sign => simp [UnpackedFloat.compare]
  | infinity sign => cases sign <;> simp [UnpackedFloat.compare]
  | finite sign _ _ positive =>
      cases sign <;> simp [UnpackedFloat.compare, positive]

/-- A finite number that is neither negative nor positive is a zero. -/
private theorem zero_of_unsigned {value : Float}
    (finite : Scalar.isFinite value = true) (notNegative : ¬value < 0)
    (notPositive : ¬0 < value) : ∃ sign, parts value = .zero sign := by
  rw [lt_iff, parts_zero] at notNegative notPositive
  rw [isFinite_iff] at finite
  cases found : parts value with
  | zero sign => exact ⟨sign, rfl⟩
  | notANumber => rw [found] at finite; cases finite
  | infinity sign => rw [found] at finite; cases finite
  | finite sign significand exponent positive =>
      cases sign with
      | negative => rw [found] at notNegative; exact absurd rfl notNegative
      | positive => rw [found] at notPositive; exact absurd rfl notPositive

/-- Both zeros are nearly zero. -/
theorem nearZero_of_zero {value : Float} {sign : Sign}
    (zero : parts value = .zero sign) : Scalar.nearZero value = true := by
  have negative : ¬value < 0 := by
    rw [lt_iff, zero, parts_zero]
    cases sign <;> exact nofun
  have epsilon_pos : (0 : Float) < Scalar.epsilon := by decide
  have below : value ≤ Scalar.epsilon := by
    rw [le_iff, zero]
    rcases pos_iff.mp epsilon_pos with infinite | ⟨_, _, _, finite⟩
    · rw [infinite]
      rfl
    · rw [finite]
      rfl
  rw [Scalar.nearZero, if_neg negative, decide_eq_true_iff]
  exact below

theorem pos_of_lt {first second : Float} (positive : 0 < first)
    (below : first < second) : 0 < second := by
  rw [lt_iff] at below
  rw [pos_iff] at positive ⊢
  rcases positive with infinite | ⟨significand, exponent, positive, finite⟩
  · rw [infinite] at below
    cases found : parts second with
    | infinity sign =>
        cases sign <;> rw [found] at below <;> cases below
    | _ => rw [found] at below; cases below
  · rw [finite] at below
    cases found : parts second with
    | notANumber => rw [found] at below; cases below
    | zero sign => rw [found] at below; cases below
    | infinity sign =>
        cases sign with
        | negative => rw [found] at below; cases below
        | positive => exact .inl rfl
    | finite sign _ _ _ =>
        cases sign with
        | negative => rw [found] at below; cases below
        | positive => exact .inr ⟨_, _, _, rfl⟩

theorem neg_lt_of_pos {value : Float} (positive : 0 < value) :
    -value < value := by
  rw [pos_iff] at positive
  rw [lt_iff, parts_neg]
  rcases positive with infinite | ⟨significand, exponent, positive, finite⟩
  · rw [infinite]
    rfl
  · rw [finite]
    rfl

theorem lt_neg_of_neg {value : Float} (negative : value < 0) :
    value < -value := by
  rw [lt_iff, parts_zero] at negative
  rw [lt_iff, parts_neg]
  cases found : parts value with
  | notANumber => rw [found] at negative; cases negative
  | zero sign => rw [found] at negative; cases negative
  | infinity sign =>
      cases sign with
      | negative => rfl
      | positive => rw [found] at negative; cases negative
  | finite sign _ _ _ =>
      cases sign with
      | negative => rfl
      | positive => rw [found] at negative; cases negative

theorem neg_pos_of_neg {value : Float} (negative : value < 0) : 0 < -value := by
  rw [lt_iff, parts_zero] at negative ⊢
  rw [parts_neg]
  cases found : parts value with
  | notANumber => rw [found] at negative; cases negative
  | zero sign => rw [found] at negative; cases negative
  | infinity sign =>
      cases sign with
      | negative => rfl
      | positive => rw [found] at negative; cases negative
  | finite sign _ _ _ =>
      cases sign with
      | negative => rfl
      | positive => rw [found] at negative; cases negative

theorem neg_neg_of_pos {value : Float} (positive : 0 < value) : -value < 0 := by
  rw [lt_iff, parts_zero] at positive ⊢
  rw [parts_neg]
  cases found : parts value with
  | notANumber => rw [found] at positive; cases positive
  | zero sign => rw [found] at positive; cases positive
  | infinity sign =>
      cases sign with
      | negative => rw [found] at positive; cases positive
      | positive => rfl
  | finite sign _ _ _ =>
      cases sign with
      | negative => rw [found] at positive; cases positive
      | positive => rfl

/-- A number is negative, positive, a zero or undefined. -/
theorem sign_cases (value : Float) : value < 0 ∨ 0 < value ∨
    (∃ sign, parts value = .zero sign) ∨ parts value = .notANumber := by
  rw [lt_iff, lt_iff, parts_zero]
  cases parts value with
  | notANumber => simp
  | zero sign => simp
  | infinity sign => cases sign <;> simp [UnpackedFloat.compare]
  | finite sign => cases sign <;> simp [UnpackedFloat.compare]

theorem not_le_of_lt {first second : Float} (below : first < second) :
    ¬second ≤ first := by
  rw [lt_iff] at below
  rw [le_iff, compare_swap (parts first), below]
  exact nofun

theorem not_lt_of_lt {first second : Float} (below : first < second) :
    ¬second < first := by
  rw [lt_iff] at below ⊢
  rw [compare_swap (parts first), below]
  exact nofun

end Negation

private theorem epsilon_lt_magnitude {value : Float}
    (finite : Scalar.isFinite value = true)
    (large : Scalar.nearZero value = false) :
    Scalar.epsilon < Scalar.magnitude value := by
  have epsilonFinite : Scalar.isFinite (Scalar.epsilon : Float) = true := by
    decide
  unfold Scalar.nearZero at large
  unfold Scalar.magnitude Scalar.larger
  by_cases negative : value < 0
  · rw [if_pos negative, decide_eq_false_iff_not] at large
    rw [if_pos (lt_neg_of_neg negative)]
    have negFinite : Scalar.isFinite (-value) = true := by
      rw [isFinite_neg, finite]
    exact lt_of_not_le negFinite epsilonFinite large
  · rw [if_neg negative, decide_eq_false_iff_not] at large
    have above := lt_of_not_le finite epsilonFinite large
    have positive : 0 < value := pos_of_lt (by decide) above
    have order := neg_lt_of_pos positive
    rw [if_neg (not_lt_of_lt order), if_pos order]
    exact above

/-- A number exceeds the tolerance exactly if it is not nearly zero. -/
theorem epsilon_lt_magnitude_iff {value : Float}
    (finite : Scalar.isFinite value = true) :
    Scalar.epsilon < Scalar.magnitude value ↔ Scalar.nearZero value = false := by
  refine ⟨?_, epsilon_lt_magnitude finite⟩
  intro above
  by_cases negative : value < 0
  · rw [Scalar.magnitude, Scalar.larger, if_pos (lt_neg_of_neg negative)] at above
    rw [Scalar.nearZero, if_pos negative, decide_eq_false_iff_not]
    exact not_le_of_lt above
  · rw [Scalar.nearZero, if_neg negative, decide_eq_false_iff_not]
    by_cases positive : 0 < value
    · have order := neg_lt_of_pos positive
      rw [Scalar.magnitude, Scalar.larger, if_neg (not_lt_of_lt order),
        if_pos order] at above
      exact not_le_of_lt above
    · obtain ⟨sign, zero⟩ := zero_of_unsigned finite negative positive
      have same : value = ofParts (.zero sign) := by rw [← zero, ofParts_parts]
      rw [same] at above
      exfalso
      cases sign <;> exact absurd above (by decide)

section Difference

/-- Equal doubles have the same parts, unless they are two zeros. -/
theorem parts_eq_of_beq {first second : Float}
    (same : (first == second) = true) :
    (∃ sign other, parts first = .zero sign ∧ parts second = .zero other) ∨
      parts first = parts second := by
  obtain ⟨_, _, equal | ⟨zero, other⟩ | ⟨zero, other⟩⟩ := beq_iff.mp same
  · exact .inr equal
  · exact .inl ⟨_, _, zero, other⟩
  · exact .inl ⟨_, _, zero, other⟩

theorem sub_self_finite (sign : Sign) {significand : Nat}
    {exponent : Int} (positive : 0 < significand) :
    UnpackedFloat.sub .binary64 (.finite sign significand exponent positive)
      (.finite sign significand exponent positive) = .zero .positive := by
  simp [UnpackedFloat.sub, UnpackedFloat.normalize]

/-- The difference of two equal finite doubles is a zero. -/
theorem sub_eq_zero_of_beq {first second : Float}
    (finite : Scalar.isFinite first = true)
    (same : (first == second) = true) :
    ∃ sign, first - second = ofParts (.zero sign) := by
  have difference : first - second =
      ofParts (.sub .binary64 (parts first) (parts second)) := rfl
  rw [difference]
  rw [isFinite_iff] at finite
  rcases parts_eq_of_beq same with ⟨sign, other, zero, otherZero⟩ | equal
  · rw [zero, otherZero]
    cases sign <;> cases other <;> exact ⟨_, rfl⟩
  · rw [← equal]
    cases found : parts first with
    | notANumber => rw [found] at finite; cases finite
    | infinity sign => rw [found] at finite; cases finite
    | zero sign => cases sign <;> exact ⟨_, rfl⟩
    | finite sign significand exponent positive =>
        exact ⟨.positive, by rw [sub_self_finite]⟩

end Difference

section Addition

variable {value : Float}

/-- What is not nearly zero does not compare as zero. -/
theorem beq_zero_of_large (large : Scalar.nearZero value = false) :
    (value == 0) = false := by
  rw [Bool.eq_false_iff]
  intro same
  have zero : ∃ sign, parts value = .zero sign := by
    rcases parts_eq_of_beq same with ⟨sign, _, zero, _⟩ | equal
    · exact ⟨sign, zero⟩
    · exact ⟨.positive, equal.trans parts_zero⟩
  obtain ⟨sign, zero⟩ := zero
  rw [nearZero_of_zero zero] at large
  cases large

/-- Added to zero, a number stays as it is, unless it is a zero and becomes
another one. -/
theorem zero_add_cases (value : Float) :
    0 + value = value ∨ ∃ sign other,
      parts value = .zero sign ∧ parts (0 + value) = .zero other := by
  have sum : 0 + value =
      ofParts (.add .binary64 (.zero .positive) (parts value)) := by
    rw [← parts_zero]
    rfl
  cases found : parts value with
  | zero sign =>
      right
      rw [sum, found]
      cases sign <;> exact ⟨_, _, rfl, parts_ofParts trivial⟩
  | _ =>
      left
      refine Eq.trans ?_ (ofParts_parts value)
      rw [sum, found]
      rfl

/-- Added to zero, only a zero can become another number. -/
theorem zero_add_of_large (large : Scalar.nearZero value = false) :
    0 + value = value := by
  rcases zero_add_cases value with same | ⟨sign, _, zero, _⟩
  · exact same
  · rw [nearZero_of_zero zero] at large
    cases large

/-- A sum with zero is negligible if the other summand is. -/
theorem nearZero_zero_add (value : Float) :
    Scalar.nearZero (0 + value) = Scalar.nearZero value := by
  rcases zero_add_cases value with same | ⟨_, _, zero, sum⟩
  · rw [same]
  · rw [nearZero_of_zero zero, nearZero_of_zero sum]

/-- A sum with zero compares as equal to the other summand, if that is defined. -/
theorem beq_zero_add (finite : Scalar.isFinite value = true) :
    (0 + value == value) = true := by
  rcases zero_add_cases value with same | ⟨sign, other, zero, sum⟩
  · have defined := defined_of_isFinite finite
    rw [same, beq_iff]
    exact ⟨defined, defined, .inl rfl⟩
  · rw [beq_iff, zero, sum]
    cases sign <;> cases other <;> simp

/-- A sum with zero does not become infinite. -/
theorem isFinite_zero_add (finite : Scalar.isFinite value = true) :
    Scalar.isFinite (0 + value) = true := by
  rcases zero_add_cases value with same | ⟨_, other, _, zero⟩
  · rw [same]
    exact finite
  · rw [isFinite_iff, zero]
    rfl

private theorem addParts_comm (unpacked other : UnpackedFloat) :
    UnpackedFloat.add .binary64 unpacked other =
      UnpackedFloat.add .binary64 other unpacked := by
  cases unpacked with
  | notANumber => cases other <;> rfl
  | infinity sign =>
      cases other with
      | infinity other => cases sign <;> cases other <;> rfl
      | _ => rfl
  | zero sign =>
      cases other with
      | zero other => cases sign <;> cases other <;> rfl
      | _ => rfl
  | finite sign significand exponent positive =>
      cases other with
      | finite other otherSignificand otherExponent otherPositive =>
          simp only [UnpackedFloat.add, min_comm otherExponent exponent]
          rw [add_comm (other.apply _)]
      | _ => rfl

/-- The order of two summands does not matter, whatever they are. -/
protected theorem add_comm (first second : Float) :
    first + second = second + first :=
  congrArg ofParts (addParts_comm (parts first) (parts second))

end Addition

instance : LawfulScalar Float where
  isFinite_zero := by decide
  epsilon_lt_magnitude := epsilon_lt_magnitude
  close_of_beq := by
    intro first second finite same
    obtain ⟨sign, difference⟩ := sub_eq_zero_of_beq finite same
    unfold Expression.close
    rw [difference]
    cases sign <;> decide

instance : NeutralZero Float where
  zero_add_of_large := zero_add_of_large

end LinearProgram.Double
