import LinearProgram.Proofs.Double.Extremes

/-!
# Infinite doubles

What has an infinite number in it stays infinite on the same side, or becomes
undefined where it meets the opposite side: sums, extremes of two numbers, and
products.  So one summand decides whether a sum can exceed something.
-/

namespace LinearProgram.Double

open Float.Model (UnpackedFloat)
open Float.Model.UnpackedFloat (Sign)

variable {first second value bound : Float} {sign : Sign}

theorem isInf_iff : value.isInf = true ↔ ∃ sign, parts value = .infinity sign := by
  change (parts value).isInf = true ↔ _
  cases parts value <;> simp [UnpackedFloat.isInf]

theorem parts_infinity : parts Scalar.infinity = .infinity .positive := by
  have same : (Scalar.infinity : Float) = ofParts (.infinity .positive) := by
    decide +kernel
  rw [same]
  exact parts_ofParts trivial

/-- There is one infinite number of each sign. -/
theorem eq_of_infinity (one : parts first = .infinity sign)
    (other : parts second = .infinity sign) : first = second := by
  rw [← ofParts_parts first, one, ← other, ofParts_parts]

/-- Nothing is above infinity. -/
theorem infinity_of_le (infinite : parts first = .infinity .positive)
    (ordered : first ≤ second) : parts second = .infinity .positive := by
  rw [le_iff, infinite] at ordered
  cases found : parts second with
  | infinity sign =>
      cases sign with
      | positive => rfl
      | negative => rw [found] at ordered; cases ordered
  | _ => rw [found] at ordered; cases ordered

/-- Nothing is below negative infinity. -/
theorem infinity_of_ge (infinite : parts second = .infinity .negative)
    (ordered : first ≤ second) : parts first = .infinity .negative := by
  rw [le_iff, infinite] at ordered
  cases found : parts first with
  | infinity sign =>
      cases sign with
      | negative => rfl
      | positive => rw [found] at ordered; cases ordered
  | finite sign _ _ _ => cases sign <;> rw [found] at ordered <;> cases ordered
  | _ => rw [found] at ordered; cases ordered

/-- Infinite with a sign, or undefined. -/
def Beyond (sign : Sign) (value : Float) : Prop :=
  parts value = .infinity sign ∨ parts value = .notANumber

theorem beyond_neg (beyond : Beyond sign value) : Beyond (-sign) (-value) := by
  rw [Beyond, parts_neg]
  rcases beyond with infinite | undefined
  · exact .inl (congrArg UnpackedFloat.neg infinite)
  · exact .inr (congrArg UnpackedFloat.neg undefined)

section Sums

/-- A number that is defined and not finite is infinite. -/
theorem isInf_iff_of_defined (defined : parts value ≠ .notANumber) :
    value.isInf = true ↔ Scalar.isFinite value = false := by
  rw [isInf_iff, ← Bool.not_eq_true, isFinite_iff]
  cases found : parts value with
  | notANumber => exact absurd found defined
  | _ => simp [UnpackedFloat.isFinite]

private theorem defined_normalize (number exponent : Int) (sign : Sign) :
    UnpackedFloat.normalize .binary64 number exponent sign ≠ .notANumber := by
  unfold UnpackedFloat.normalize
  split
  case h_2 => exact nofun
  all_goals
    simp only [UnpackedFloat.round, UnpackedFloat.roundWithAccuracy]
    split <;> exact nofun

/-- A finite number added to a defined one leaves it defined. -/
theorem defined_add (defined : parts first ≠ .notANumber)
    (finite : Scalar.isFinite second = true) :
    parts (first + second) ≠ .notANumber := by
  have sum : first + second =
      ofParts (.add .binary64 (parts first) (parts second)) := rfl
  rw [sum]
  apply defined_ofParts
  rw [isFinite_iff] at finite
  cases found : parts second with
  | notANumber => rw [found] at finite; cases finite
  | infinity sign => rw [found] at finite; cases finite
  | zero sign =>
      cases start : parts first with
      | notANumber => exact absurd start defined
      | zero other => cases sign <;> cases other <;> exact nofun
      | _ => exact nofun
  | finite sign =>
      cases start : parts first with
      | notANumber => exact absurd start defined
      | finite => exact defined_normalize _ _ _
      | _ => exact nofun

theorem Beyond.add_right (beyond : Beyond sign first) (second : Float) :
    Beyond sign (first + second) := by
  rcases beyond with infinite | undefined
  · have sum : first + second =
        ofParts (.add .binary64 (parts first) (parts second)) := rfl
    rw [Beyond, sum, infinite]
    cases parts second with
    | infinity other =>
        cases sign <;> cases other <;> first
          | exact .inl (parts_ofParts trivial)
          | exact .inr (parts_ofParts trivial)
    | notANumber => exact .inr (parts_ofParts trivial)
    | _ => exact .inl (parts_ofParts trivial)
  · exact .inr (parts_add_undefined (.inl undefined))

theorem Beyond.add_left (beyond : Beyond sign second) (first : Float) :
    Beyond sign (first + second) := by
  rw [Double.add_comm]
  exact beyond.add_right first

theorem Beyond.total {β : Type} {summand : β → Float} {start : Float}
    (beyond : Beyond sign start) (items : List β) :
    Beyond sign (items.foldl (fun total item => total + summand item) start) := by
  induction items generalizing start with
  | nil => exact beyond
  | cons item rest induction => exact induction (beyond.add_right _)

/-- A total is beyond if one summand is. -/
theorem beyond_total {β : Type} {summand : β → Float} {items : List β} {item : β}
    (membership : item ∈ items) (beyond : Beyond sign (summand item)) (start : Float) :
    Beyond sign (items.foldl (fun total item => total + summand item) start) := by
  induction items generalizing start with
  | nil => cases membership
  | cons head rest induction =>
      rcases List.mem_cons.mp membership with rfl | later
      · exact Beyond.total (beyond.add_left start) rest
      · exact induction later _

end Sums

section Products

private theorem beyond_of_mul {factor : Float}
    (product : UnpackedFloat.mul .binary64 (parts factor) (parts bound) =
      .infinity sign ∨
        UnpackedFloat.mul .binary64 (parts factor) (parts bound) = .notANumber) :
    Beyond sign (factor * bound) := by
  have same : factor * bound =
      ofParts (.mul .binary64 (parts factor) (parts bound)) := rfl
  rcases product with infinite | undefined
  · left
    rw [same, infinite]
    exact parts_ofParts trivial
  · right
    rw [same, undefined]
    exact parts_ofParts trivial

theorem beyond_mul_of_not_neg {factor : Float} (notNegative : ¬factor < 0)
    (infinite : parts bound = .infinity sign) : Beyond sign (factor * bound) := by
  rw [lt_iff, parts_zero] at notNegative
  apply beyond_of_mul
  rw [infinite]
  cases found : parts factor with
  | notANumber => exact .inr rfl
  | zero => exact .inr rfl
  | infinity side =>
      cases side with
      | positive => left; cases sign <;> rfl
      | negative => rw [found] at notNegative; exact absurd rfl notNegative
  | finite side _ _ _ =>
      cases side with
      | positive => left; cases sign <;> rfl
      | negative => rw [found] at notNegative; exact absurd rfl notNegative

theorem beyond_mul_of_neg {factor : Float} (negative : factor < 0)
    (infinite : parts bound = .infinity sign) : Beyond (-sign) (factor * bound) := by
  rw [lt_iff, parts_zero] at negative
  apply beyond_of_mul
  rw [infinite]
  cases found : parts factor with
  | notANumber => rw [found] at negative; cases negative
  | zero side => rw [found] at negative; cases negative
  | infinity side =>
      cases side with
      | negative => left; cases sign <;> rfl
      | positive => rw [found] at negative; cases negative
  | finite side _ _ _ =>
      cases side with
      | negative => left; cases sign <;> rfl
      | positive => rw [found] at negative; cases negative

end Products

section Extremes

/-- Of two numbers that are beyond one side, so is the larger one. -/
theorem Beyond.larger (beyond : Beyond sign first) (other : Beyond sign second) :
    Beyond sign (Scalar.larger first second) := by
  unfold Scalar.larger
  split
  · exact other
  · split
    · exact beyond
    · split
      · split
        · exact beyond.add_right second
        · exact beyond
      · exact beyond.add_right second

/-- What is infinite on the positive side is the larger of two numbers. -/
theorem beyond_larger (either : Beyond .positive first ∨ Beyond .positive second) :
    Beyond .positive (Scalar.larger first second) := by
  have raised : ∀ {lesser greater : Float}, lesser ≤ greater →
      Beyond .positive lesser → Beyond .positive greater := by
    intro lesser greater ordered beyond
    rcases beyond with infinite | undefined
    · exact .inl (infinity_of_le infinite ordered)
    · exact absurd undefined (defined_of_le ordered).1
  have summed : Beyond .positive (first + second) := by
    rcases either with beyond | beyond
    · exact beyond.add_right second
    · exact beyond.add_left first
  unfold Scalar.larger
  by_cases below : first < second
  · rw [if_pos below]
    rcases either with beyond | beyond
    · exact raised (le_of_lt below) beyond
    · exact beyond
  · rw [if_neg below]
    by_cases above : second < first
    · rw [if_pos above]
      rcases either with beyond | beyond
      · exact beyond
      · exact raised (le_of_lt above) beyond
    · rw [if_neg above]
      by_cases same : (first == second) = true
      · rw [if_pos same]
        by_cases zero : (first == 0) = true
        · rw [if_pos zero]
          exact summed
        · rw [if_neg zero]
          rcases either with beyond | beyond
          · exact beyond
          · rcases parts_eq_of_beq same with ⟨_, _, _, other⟩ | equal
            · rw [Beyond, other] at beyond
              simp at beyond
            · rw [Beyond, equal]
              exact beyond
      · rw [if_neg same]
        exact summed

/-- What is infinite on the negative side is the smaller of two numbers. -/
theorem beyond_smaller (either : Beyond .negative first ∨ Beyond .negative second) :
    Beyond .negative (Scalar.smaller first second) := by
  have opposite : Beyond .positive (-first) ∨ Beyond .positive (-second) := by
    rcases either with beyond | beyond
    · exact .inl (beyond_neg beyond)
    · exact .inr (beyond_neg beyond)
  exact beyond_neg (beyond_larger opposite)

theorem Beyond.smaller (beyond : Beyond sign first) (other : Beyond sign second) :
    Beyond sign (Scalar.smaller first second) := by
  have turned := beyond_neg ((beyond_neg beyond).larger (beyond_neg other))
  have twice : - -sign = sign := by cases sign <;> rfl
  rw [twice] at turned
  exact turned

end Extremes

section Comparisons

theorem lt_iff_of_beyond (beyond : Beyond .positive value) :
    bound < value ↔ value = Scalar.infinity ∧ bound < Scalar.infinity := by
  constructor
  · intro below
    rcases beyond with infinite | undefined
    · have same := eq_of_infinity infinite parts_infinity
      exact ⟨same, same ▸ below⟩
    · exact absurd undefined (defined_of_le (le_of_lt below)).2
  · rintro ⟨rfl, below⟩
    exact below

theorem gt_iff_of_beyond (beyond : Beyond .negative value) :
    value < bound ↔ value = -Scalar.infinity ∧ -Scalar.infinity < bound := by
  have opposite : parts (-Scalar.infinity) = .infinity .negative := by
    rw [parts_neg, parts_infinity]
    rfl
  constructor
  · intro below
    rcases beyond with infinite | undefined
    · have same := eq_of_infinity infinite opposite
      exact ⟨same, same ▸ below⟩
    · exact absurd undefined (defined_of_le (le_of_lt below)).1
  · rintro ⟨rfl, below⟩
    exact below

theorem not_lt_of_beyond (beyond : Beyond .negative value) : ¬bound < value := by
  intro below
  rcases beyond with infinite | undefined
  · have least := infinity_of_ge infinite (le_of_lt below)
    rw [lt_iff, infinite, least] at below
    exact absurd below (by decide)
  · exact absurd undefined (defined_of_le (le_of_lt below)).2

theorem not_gt_of_beyond (beyond : Beyond .positive value) : ¬value < bound := by
  intro below
  rcases beyond with infinite | undefined
  · have greatest := infinity_of_le infinite (le_of_lt below)
    rw [lt_iff, infinite, greatest] at below
    exact absurd below (by decide)
  · exact absurd undefined (defined_of_le (le_of_lt below)).1

end Comparisons

end LinearProgram.Double
