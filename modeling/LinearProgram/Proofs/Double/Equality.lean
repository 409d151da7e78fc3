import LinearProgram.Proofs.Double.Order

/-!
# Equality of doubles

Doubles compare as equal if they have the same parts or are two zeros.  On finite doubles that is an
equivalence, which changes of sign and sums with zero respect.
-/

namespace LinearProgram.Double

open Float.Model (UnpackedFloat Format)
open Float.Model.UnpackedFloat (Sign)

variable {first second third value : Float}

protected theorem beq_refl (finite : Scalar.isFinite value = true) : (value == value) = true :=
  beq_iff.mpr ⟨defined_of_isFinite finite, defined_of_isFinite finite, .inl rfl⟩

protected theorem beq_comm (same : (first == second) = true) : (second == first) = true := by
  obtain ⟨defined, otherDefined, equal | ⟨zero, other⟩ | ⟨zero, other⟩⟩ := beq_iff.mp same
  · exact beq_iff.mpr ⟨otherDefined, defined, .inl equal.symm⟩
  · exact beq_iff.mpr ⟨otherDefined, defined, .inr (.inr ⟨other, zero⟩)⟩
  · exact beq_iff.mpr ⟨otherDefined, defined, .inr (.inl ⟨other, zero⟩)⟩

/-- Zeros compare as equal. -/
theorem beq_of_zeros {sign other : Sign} (zero : parts first = .zero sign)
    (otherZero : parts second = .zero other) : (first == second) = true := by
  rw [beq_iff, zero, otherZero]
  cases sign <;> cases other <;> simp

protected theorem beq_trans (one : (first == second) = true) (two : (second == third) = true) :
    (first == third) = true := by
  rcases parts_eq_of_beq one with ⟨sign, other, zero, middle⟩ | same
  · rcases parts_eq_of_beq two with ⟨_, last, _, lastZero⟩ | same
    · exact beq_of_zeros zero lastZero
    · exact beq_of_zeros zero (same ▸ middle)
  · rw [eq_of_parts_eq same]
    exact two

theorem beq_neg (same : (first == second) = true) : (-first == -second) = true := by
  rcases parts_eq_of_beq same with ⟨sign, other, zero, otherZero⟩ | equal
  · have negated : parts (-first) = .zero (-sign) := by rw [parts_neg, zero]; rfl
    have otherNegated : parts (-second) = .zero (-other) := by rw [parts_neg, otherZero]; rfl
    exact beq_of_zeros negated otherNegated
  · have defined : parts (-first) ≠ .notANumber := by
      have given := (beq_iff.mp same).1
      rw [parts_neg]
      cases found : parts first with
      | notANumber => exact absurd found given
      | _ => exact nofun
    rw [eq_of_parts_eq equal] at defined ⊢
    exact beq_iff.mpr ⟨defined, defined, .inl rfl⟩

theorem isFinite_of_beq (finite : Scalar.isFinite first = true) (same : (first == second) = true) :
    Scalar.isFinite second = true := by
  rcases parts_eq_of_beq same with ⟨_, _, _, zero⟩ | equal
  · rw [isFinite_iff, zero]
    rfl
  · rw [← eq_of_parts_eq equal]
    exact finite

/-- A sum with zero compares as equal to the other summand. -/
theorem add_zero_beq {sign : Sign} (zero : parts second = .zero sign)
    (finite : Scalar.isFinite first = true) : (first + second == first) = true := by
  have sum : first + second = ofParts (.add .binary64 (parts first) (parts second)) := rfl
  rw [isFinite_iff] at finite
  cases found : parts first with
  | notANumber => rw [found] at finite; cases finite
  | infinity sign => rw [found] at finite; cases finite
  | zero other =>
      have added : ∃ sign, parts (first + second) = .zero sign := by
        rw [sum, found, zero]
        cases sign <;> cases other <;> exact ⟨_, parts_ofParts trivial⟩
      obtain ⟨_, added⟩ := added
      exact beq_of_zeros added found
  | finite other significand exponent positive =>
      have same : first + second = first := by
        rw [sum, found, zero, ← ofParts_parts first, found]
        rfl
      rw [same]
      exact Double.beq_refl (by rw [isFinite_iff, found]; rfl)

end LinearProgram.Double
