import LinearProgram.Proofs.Double.Order

/-!
# The larger and the smaller of two doubles

Neither is undefined unless one of the two doubles is.  Apart from that, the
larger one is at least the second, and the smaller one at most.
-/

namespace LinearProgram.Double

open Float.Model (UnpackedFloat)

variable {first second : Float}

/-- A sum is undefined if one summand is. -/
theorem parts_add_undefined
    (undefined : parts first = .notANumber ∨ parts second = .notANumber) :
    parts (first + second) = .notANumber := by
  have sum : first + second =
      ofParts (.add .binary64 (parts first) (parts second)) := rfl
  have none : UnpackedFloat.add .binary64 (parts first) (parts second) =
      .notANumber := by
    rcases undefined with undefined | undefined
    · rw [undefined]
      rfl
    · rw [undefined]
      cases parts first <;> rfl
  rw [sum, none]
  exact parts_ofParts trivial

/-- The sum of two zeros is not below either. -/
private theorem le_add_of_zeros (same : (first == second) = true)
    (zero : (first == 0) = true) : second ≤ first + second := by
  have sum : first + second =
      ofParts (.add .binary64 (parts first) (parts second)) := rfl
  have firstZero : ∃ sign, parts first = .zero sign := by
    obtain ⟨_, _, equal | ⟨zero, _⟩ | ⟨zero, _⟩⟩ := beq_iff.mp zero
    · exact ⟨_, equal.trans parts_zero⟩
    · exact ⟨_, zero⟩
    · exact ⟨_, zero⟩
  obtain ⟨sign, firstZero⟩ := firstZero
  have secondZero : ∃ sign, parts second = .zero sign := by
    rcases parts_eq_of_beq same with ⟨_, other, _, zero⟩ | equal
    · exact ⟨other, zero⟩
    · exact ⟨sign, equal.symm.trans firstZero⟩
  obtain ⟨other, secondZero⟩ := secondZero
  have total : ∃ sign, parts (first + second) = .zero sign := by
    rw [sum, firstZero, secondZero]
    cases sign <;> cases other <;> exact ⟨_, parts_ofParts trivial⟩
  obtain ⟨_, total⟩ := total
  rw [le_iff, secondZero, total]
  rfl

theorem le_larger
    (defined : parts (Scalar.larger first second) ≠ .notANumber) :
    second ≤ Scalar.larger first second := by
  unfold Scalar.larger at defined ⊢
  by_cases below : first < second
  · rw [if_pos below] at defined ⊢
    exact le_refl defined
  · rw [if_neg below] at defined ⊢
    by_cases above : second < first
    · rw [if_pos above]
      exact le_of_lt above
    · rw [if_neg above] at defined ⊢
      by_cases same : (first == second) = true
      · rw [if_pos same]
        by_cases zero : (first == 0) = true
        · rw [if_pos zero]
          exact le_add_of_zeros same zero
        · rw [if_neg zero]
          rcases parts_eq_of_beq same with ⟨_, _, one, other⟩ | equal
          · rw [le_iff, one, other]
            rfl
          · rw [le_iff, equal, ← le_iff]
            exact le_refl (beq_iff.mp same).2.1
      · rw [if_neg same] at defined
        have undefined := undefined_of_incomparable below above same
        exact absurd (parts_add_undefined undefined) defined

theorem smaller_le
    (defined : parts (Scalar.smaller first second) ≠ .notANumber) :
    Scalar.smaller first second ≤ second := by
  unfold Scalar.smaller at defined ⊢
  rw [parts_neg] at defined
  have above : -second ≤ Scalar.larger (-first) (-second) := by
    apply le_larger
    intro undefined
    rw [undefined] at defined
    exact defined rfl
  have below := neg_le_neg above
  -- Two signs cancel in the parts, and only these are compared.
  rw [le_iff, parts_neg, parts_neg, parts_neg] at below
  rw [le_iff, parts_neg]
  have twice : (parts second).neg.neg = parts second := by
    cases parts second with
    | notANumber => rfl
    | infinity sign => cases sign <;> rfl
    | zero sign => cases sign <;> rfl
    | finite sign _ _ _ => cases sign <;> rfl
  rw [twice] at below
  exact below

/-- What is clipped to an interval and leaves something between its ends lies
within the interval. -/
theorem clipped_within {lower upper least greatest : Float}
    (ordered : Scalar.larger lower least ≤ Scalar.smaller upper greatest) :
    least ≤ Scalar.larger lower least ∧
      Scalar.smaller upper greatest ≤ greatest := by
  obtain ⟨lowerDefined, upperDefined⟩ := defined_of_le ordered
  exact ⟨le_larger lowerDefined, smaller_le upperDefined⟩

end LinearProgram.Double
