import LinearProgram.Scalar.Exact
import Mathlib.Algebra.Order.Field.Basic
import Mathlib.Algebra.Order.Field.Rat
import Mathlib.Tactic.Linarith
import Mathlib.Tactic.Ring

/-!
# Intervals of exact numbers

Lower bounds are rationals or negative infinity, upper bounds are rationals or
positive infinity.  The rationals between a lower and an upper bound form an
interval.  Multiples and sums of intervals are computed at their bounds.

For sums, a rational between the sums of the bounds has to be split.  That is a
question whether two intervals meet, and they do if no lower bound exceeds an
upper bound.
-/

namespace LinearProgram.Exact

/-- A number that can bound rationals from below. -/
inductive IsLower : Exact → Prop
  | finite (value : Rat) : IsLower (.finite value)
  | unbounded : IsLower (.infinite true)

/-- A number that can bound rationals from above. -/
inductive IsUpper : Exact → Prop
  | finite (value : Rat) : IsUpper (.finite value)
  | unbounded : IsUpper (.infinite false)

/-- Two numbers between which there are rationals. -/
structure Bounds (lower upper : Exact) : Prop where
  isLower : IsLower lower
  isUpper : IsUpper upper
  ordered : lower ≤ upper

/-- A rational lies between two bounds. -/
def Between (lower upper : Exact) (value : Rat) : Prop :=
  lower ≤ .finite value ∧ .finite value ≤ upper

section Comparison

@[simp]
theorem finite_le_finite {first second : Rat} :
    (Exact.finite first ≤ .finite second) ↔ first ≤ second := by
  change (decide (first < second) || decide (first = second)) = true ↔ _
  simp [le_iff_lt_or_eq]

@[simp]
theorem finite_lt_finite {first second : Rat} :
    (Exact.finite first < .finite second) ↔ first < second := by
  change decide (first < second) = true ↔ _
  simp

@[simp]
theorem negative_le_finite (value : Rat) : Exact.infinite true ≤ .finite value :=
  rfl

@[simp]
theorem finite_le_positive (value : Rat) : Exact.finite value ≤ .infinite false :=
  rfl

@[simp]
theorem negative_le_positive : Exact.infinite true ≤ .infinite false := rfl

@[simp]
theorem finite_add_finite (first second : Rat) :
    Exact.finite first + .finite second = .finite (first + second) := rfl

@[simp]
theorem finite_sub_finite (first second : Rat) :
    Exact.finite first - .finite second = .finite (first - second) := by
  rw [sub_eq_add_neg]
  rfl

@[simp]
theorem finite_mul_finite (first second : Rat) :
    Exact.finite first * .finite second = .finite (first * second) := rfl

variable {lower upper : Exact}

theorem bounds_of_between {value : Rat} (isLower : IsLower lower)
    (isUpper : IsUpper upper) (between : Between lower upper value) :
    Bounds lower upper := by
  refine ⟨isLower, isUpper, ?_⟩
  obtain ⟨above, below⟩ := between
  cases isLower with
  | unbounded => cases isUpper <;> simp
  | finite least =>
      cases isUpper with
      | unbounded => simp
      | finite greatest =>
          rw [finite_le_finite] at above below ⊢
          exact le_trans above below

/-- An interval is inhabited if its bounds are in order. -/
theorem Bounds.exists_between (bounds : Bounds lower upper) :
    ∃ value, Between lower upper value := by
  obtain ⟨isLower, isUpper, ordered⟩ := bounds
  cases isLower with
  | finite least => exact ⟨least, by simp, ordered⟩
  | unbounded =>
      cases isUpper with
      | finite greatest => exact ⟨greatest, by simp, by simp⟩
      | unbounded => exact ⟨0, by simp, by simp⟩

/-- Of two lower bounds, one implies the other. -/
theorem lower_total {first second : Exact} (firstLower : IsLower first)
    (secondLower : IsLower second) :
    (∀ value : Rat, first ≤ .finite value → second ≤ .finite value) ∨
      (∀ value : Rat, second ≤ .finite value → first ≤ .finite value) := by
  cases firstLower with
  | unbounded => exact .inr (fun _ _ => by simp)
  | finite least =>
      cases secondLower with
      | unbounded => exact .inl (fun _ _ => by simp)
      | finite other =>
          simp only [finite_le_finite]
          rcases le_total other least with below | above
          · exact .inl (fun _ => le_trans below)
          · exact .inr (fun _ => le_trans above)

/-- Of two upper bounds, one implies the other. -/
theorem upper_total {first second : Exact} (firstUpper : IsUpper first)
    (secondUpper : IsUpper second) :
    (∀ value : Rat, .finite value ≤ first → .finite value ≤ second) ∨
      (∀ value : Rat, .finite value ≤ second → .finite value ≤ first) := by
  cases firstUpper with
  | unbounded => exact .inr (fun _ _ => by simp)
  | finite greatest =>
      cases secondUpper with
      | unbounded => exact .inl (fun _ _ => by simp)
      | finite other =>
          simp only [finite_le_finite]
          rcases le_total greatest other with below | above
          · exact .inl (fun _ bound => le_trans bound below)
          · exact .inr (fun _ bound => le_trans bound above)

/-- Two intervals meet if no lower bound exceeds an upper bound. -/
theorem exists_between_both {otherLower otherUpper : Exact}
    (bounds : Bounds lower upper) (otherBounds : Bounds otherLower otherUpper)
    (crossed : lower ≤ otherUpper) (otherCrossed : otherLower ≤ upper) :
    ∃ value, Between lower upper value ∧ Between otherLower otherUpper value := by
  have mixed : Bounds lower otherUpper :=
    ⟨bounds.isLower, otherBounds.isUpper, crossed⟩
  have otherMixed : Bounds otherLower upper :=
    ⟨otherBounds.isLower, bounds.isUpper, otherCrossed⟩
  rcases lower_total bounds.isLower otherBounds.isLower with toOther | toThis
  · rcases upper_total bounds.isUpper otherBounds.isUpper with
      toOtherUpper | toThisUpper
    · obtain ⟨value, above, below⟩ := bounds.exists_between
      exact ⟨value, ⟨above, below⟩, toOther value above, toOtherUpper value below⟩
    · obtain ⟨value, above, below⟩ := mixed.exists_between
      exact ⟨value, ⟨above, toThisUpper value below⟩, toOther value above, below⟩
  · rcases upper_total bounds.isUpper otherBounds.isUpper with
      toOtherUpper | toThisUpper
    · obtain ⟨value, above, below⟩ := otherMixed.exists_between
      exact ⟨value, ⟨toThis value above, below⟩, above, toOtherUpper value below⟩
    · obtain ⟨value, above, below⟩ := otherBounds.exists_between
      exact ⟨value, ⟨toThis value above, toThisUpper value below⟩, above, below⟩

/-- Two intervals have a rational in common exactly if no lower bound exceeds
an upper bound. -/
theorem meet_iff {otherLower otherUpper : Exact} (bounds : Bounds lower upper)
    (otherBounds : Bounds otherLower otherUpper) :
    (∃ value, Between lower upper value ∧ Between otherLower otherUpper value) ↔
      lower ≤ otherUpper ∧ otherLower ≤ upper := by
  constructor
  · rintro ⟨value, inside, otherInside⟩
    have crossed := bounds_of_between bounds.isLower otherBounds.isUpper
      ⟨inside.1, otherInside.2⟩
    have otherCrossed := bounds_of_between otherBounds.isLower bounds.isUpper
      ⟨otherInside.1, inside.2⟩
    exact ⟨crossed.ordered, otherCrossed.ordered⟩
  · rintro ⟨crossed, otherCrossed⟩
    exact exists_between_both bounds otherBounds crossed otherCrossed

theorem not_upper_lt_lower_iff (isUpper : IsUpper upper)
    (isLower : IsLower lower) : ¬upper < lower ↔ lower ≤ upper := by
  cases isLower with
  | unbounded => cases isUpper <;> exact iff_of_true nofun rfl
  | finite least =>
      cases isUpper with
      | unbounded => exact iff_of_true nofun rfl
      | finite greatest => simp

end Comparison

section Sum

variable {lower upper otherLower otherUpper : Exact}

theorem IsLower.add (isLower : IsLower lower) (otherIsLower : IsLower otherLower) :
    IsLower (lower + otherLower) := by
  cases isLower <;> cases otherIsLower <;> constructor

theorem IsUpper.add (isUpper : IsUpper upper) (otherIsUpper : IsUpper otherUpper) :
    IsUpper (upper + otherUpper) := by
  cases isUpper <;> cases otherIsUpper <;> constructor

/-- What is left of a rational above a lower bound is bounded from above. -/
theorem IsLower.sub_left (isLower : IsLower lower) (value : Rat) :
    IsUpper (.finite value - lower) := by
  cases isLower <;> constructor

theorem IsUpper.sub_left (isUpper : IsUpper upper) (value : Rat) :
    IsLower (.finite value - upper) := by
  cases isUpper <;> constructor

private theorem lower_le_sub (isLower : IsLower lower)
    (otherIsLower : IsLower otherLower) {value : Rat}
    (bound : lower + otherLower ≤ .finite value) :
    lower ≤ .finite value - otherLower := by
  cases isLower with
  | unbounded => cases otherIsLower <;> rfl
  | finite least =>
      cases otherIsLower with
      | unbounded => rfl
      | finite other =>
          simp only [finite_sub_finite, finite_add_finite, finite_le_finite]
            at bound ⊢
          linarith

private theorem sub_le_upper (isUpper : IsUpper upper)
    (otherIsUpper : IsUpper otherUpper) {value : Rat}
    (bound : .finite value ≤ upper + otherUpper) :
    .finite value - otherUpper ≤ upper := by
  cases isUpper with
  | unbounded => cases otherIsUpper <;> rfl
  | finite greatest =>
      cases otherIsUpper with
      | unbounded => rfl
      | finite other =>
          simp only [finite_sub_finite, finite_add_finite, finite_le_finite]
            at bound ⊢
          linarith

private theorem add_lower_le (isLower : IsLower lower)
    (otherIsLower : IsLower otherLower) {part value : Rat}
    (bound : lower ≤ .finite part)
    (otherBound : otherLower ≤ .finite (value - part)) :
    lower + otherLower ≤ .finite value := by
  cases isLower with
  | unbounded => cases otherIsLower <;> rfl
  | finite least =>
      cases otherIsLower with
      | unbounded => rfl
      | finite other =>
          simp only [finite_add_finite, finite_le_finite] at bound otherBound ⊢
          linarith

private theorem le_add_upper (isUpper : IsUpper upper)
    (otherIsUpper : IsUpper otherUpper) {part value : Rat}
    (bound : .finite part ≤ upper)
    (otherBound : .finite (value - part) ≤ otherUpper) :
    .finite value ≤ upper + otherUpper := by
  cases isUpper with
  | unbounded => cases otherIsUpper <;> rfl
  | finite greatest =>
      cases otherIsUpper with
      | unbounded => rfl
      | finite other =>
          simp only [finite_add_finite, finite_le_finite] at bound otherBound ⊢
          linarith

private theorem between_rest (otherIsLower : IsLower otherLower)
    (otherIsUpper : IsUpper otherUpper) {value part : Rat}
    (between : Between (.finite value - otherUpper) (.finite value - otherLower)
      part) : Between otherLower otherUpper (value - part) := by
  obtain ⟨above, below⟩ := between
  constructor
  · cases otherIsLower with
    | unbounded => simp
    | finite least =>
        simp only [finite_sub_finite, finite_le_finite] at below ⊢
        linarith
  · cases otherIsUpper with
    | unbounded => simp
    | finite greatest =>
        simp only [finite_sub_finite, finite_le_finite] at above ⊢
        linarith

/-- What is left of a rational by the rationals of an interval. -/
private theorem Bounds.rest (bounds : Bounds lower upper) (value : Rat) :
    Bounds (.finite value - upper) (.finite value - lower) := by
  obtain ⟨isLower, isUpper, ordered⟩ := bounds
  refine ⟨isUpper.sub_left value, isLower.sub_left value, ?_⟩
  cases isLower with
  | unbounded => cases isUpper <;> rfl
  | finite least =>
      cases isUpper with
      | unbounded => rfl
      | finite greatest =>
          simp only [finite_sub_finite, finite_le_finite] at ordered ⊢
          linarith

/-- The rationals between the sums of bounds are the sums of rationals between
the bounds. -/
theorem between_add_iff (bounds : Bounds lower upper)
    (otherBounds : Bounds otherLower otherUpper) (value : Rat) :
    Between (lower + otherLower) (upper + otherUpper) value ↔
      ∃ part, Between lower upper part ∧
        Between otherLower otherUpper (value - part) := by
  constructor
  · rintro ⟨above, below⟩
    have crossed := lower_le_sub bounds.isLower otherBounds.isLower above
    have otherCrossed := sub_le_upper bounds.isUpper otherBounds.isUpper below
    obtain ⟨part, inside, remaining⟩ := exists_between_both bounds
      (otherBounds.rest value) crossed otherCrossed
    exact ⟨part, inside,
      between_rest otherBounds.isLower otherBounds.isUpper remaining⟩
  · rintro ⟨part, inside, remaining⟩
    exact ⟨add_lower_le bounds.isLower otherBounds.isLower inside.1 remaining.1,
      le_add_upper bounds.isUpper otherBounds.isUpper inside.2 remaining.2⟩

theorem Bounds.add (bounds : Bounds lower upper)
    (otherBounds : Bounds otherLower otherUpper) :
    Bounds (lower + otherLower) (upper + otherUpper) := by
  obtain ⟨part, inside⟩ := bounds.exists_between
  obtain ⟨other, otherInside⟩ := otherBounds.exists_between
  have rest : part + other - part = other := by ring
  apply bounds_of_between (bounds.isLower.add otherBounds.isLower)
    (bounds.isUpper.add otherBounds.isUpper)
  apply (between_add_iff bounds otherBounds (part + other)).mpr
  refine ⟨part, inside, ?_⟩
  rw [rest]
  exact otherInside

end Sum

section Multiple

variable {lower upper : Exact}

@[simp]
theorem larger_finite (first second : Rat) :
    Scalar.larger (Exact.finite first) (.finite second) =
      .finite (max first second) := by
  simp only [Scalar.larger, finite_lt_finite]
  rcases lt_trichotomy first second with below | rfl | above
  · rw [if_pos below, max_eq_right below.le]
  · rw [if_neg (lt_irrefl first), if_neg (lt_irrefl first), max_self]
    change (if decide (first = first) = true then
      if decide (first = 0) = true then Exact.finite (first + first)
        else .finite first else _) = _
    by_cases zero : first = 0
    · simp [zero]
    · simp [zero]
  · rw [if_neg above.not_gt, if_pos above, max_eq_left above.le]

/-- The larger one of two bounds is the upper one, in either order. -/
theorem Bounds.larger_eq (bounds : Bounds lower upper) :
    Scalar.larger lower upper = upper ∧ Scalar.larger upper lower = upper := by
  obtain ⟨isLower, isUpper, ordered⟩ := bounds
  cases isLower with
  | unbounded => cases isUpper <;> exact ⟨rfl, rfl⟩
  | finite least =>
      cases isUpper with
      | unbounded => exact ⟨rfl, rfl⟩
      | finite greatest =>
          rw [finite_le_finite] at ordered
          simp [ordered]

/-- The smaller one of two bounds is the lower one, in either order. -/
theorem Bounds.smaller_eq (bounds : Bounds lower upper) :
    Scalar.smaller lower upper = lower ∧ Scalar.smaller upper lower = lower := by
  obtain ⟨isLower, isUpper, ordered⟩ := bounds
  cases isLower with
  | unbounded => cases isUpper <;> exact ⟨rfl, rfl⟩
  | finite least =>
      cases isUpper with
      | unbounded =>
          have restored := congrArg Exact.finite (neg_neg least)
          exact ⟨restored, restored⟩
      | finite greatest =>
          rw [finite_le_finite] at ordered
          have negated : -greatest ≤ -least := neg_le_neg ordered
          have opposite (first second : Rat) :
              Scalar.smaller (Exact.finite first) (.finite second) =
                .finite (-max (-first) (-second)) := by
            change -Scalar.larger (Exact.finite (-first)) (.finite (-second)) = _
            rw [larger_finite]
            rfl
          simp [opposite, negated]

variable {factor : Rat}

private theorem mul_infinite_of_pos (positive : 0 < factor) (negative : Bool) :
    Exact.finite factor * .infinite negative = .infinite negative := by
  change scaled negative factor = _
  simp [scaled, positive.ne', positive.not_gt]

private theorem mul_infinite_of_neg (isNegative : factor < 0) (negative : Bool) :
    Exact.finite factor * .infinite negative = .infinite (!negative) := by
  change scaled negative factor = _
  simp [scaled, isNegative.ne, isNegative]

private theorem isLower_mul_of_pos (positive : 0 < factor)
    (isLower : IsLower lower) : IsLower (.finite factor * lower) := by
  cases isLower with
  | finite least => exact .finite _
  | unbounded =>
      rw [mul_infinite_of_pos positive]
      exact .unbounded

private theorem isUpper_mul_of_pos (positive : 0 < factor)
    (isUpper : IsUpper upper) : IsUpper (.finite factor * upper) := by
  cases isUpper with
  | finite greatest => exact .finite _
  | unbounded =>
      rw [mul_infinite_of_pos positive]
      exact .unbounded

private theorem isUpper_mul_of_neg (negative : factor < 0)
    (isLower : IsLower lower) : IsUpper (.finite factor * lower) := by
  cases isLower with
  | finite least => exact .finite _
  | unbounded =>
      rw [mul_infinite_of_neg negative]
      exact .unbounded

private theorem isLower_mul_of_neg (negative : factor < 0)
    (isUpper : IsUpper upper) : IsLower (.finite factor * upper) := by
  cases isUpper with
  | finite greatest => exact .finite _
  | unbounded =>
      rw [mul_infinite_of_neg negative]
      exact .unbounded

private theorem between_mul_of_pos (positive : 0 < factor)
    (isLower : IsLower lower) (isUpper : IsUpper upper) (value : Rat) :
    Between (.finite factor * lower) (.finite factor * upper) value ↔
      Between lower upper (value / factor) := by
  apply and_congr
  · cases isLower with
    | unbounded => simp [mul_infinite_of_pos positive]
    | finite least =>
        simp only [finite_mul_finite, finite_le_finite]
        rw [le_div_iff₀' positive]
  · cases isUpper with
    | unbounded => simp [mul_infinite_of_pos positive]
    | finite greatest =>
        simp only [finite_mul_finite, finite_le_finite]
        rw [div_le_iff₀' positive]

private theorem between_mul_of_neg (negative : factor < 0)
    (isLower : IsLower lower) (isUpper : IsUpper upper) (value : Rat) :
    Between (.finite factor * upper) (.finite factor * lower) value ↔
      Between lower upper (value / factor) := by
  rw [Between, Between, and_comm]
  apply and_congr
  · cases isLower with
    | unbounded => simp [mul_infinite_of_neg negative]
    | finite least =>
        simp only [finite_mul_finite, finite_le_finite]
        rw [le_div_iff_of_neg' negative]
  · cases isUpper with
    | unbounded => simp [mul_infinite_of_neg negative]
    | finite greatest =>
        simp only [finite_mul_finite, finite_le_finite]
        rw [div_le_iff_of_neg' negative]

/-- The smaller and the larger multiple of two bounds are bounds again, and
between them are the multiples of the rationals between the two. -/
theorem Bounds.multiples (bounds : Bounds lower upper) (nonzero : factor ≠ 0) :
    Bounds (Scalar.smaller (.finite factor * lower) (.finite factor * upper))
        (Scalar.larger (.finite factor * lower) (.finite factor * upper)) ∧
      ∀ value, Between
          (Scalar.smaller (.finite factor * lower) (.finite factor * upper))
          (Scalar.larger (.finite factor * lower) (.finite factor * upper))
          value ↔
        Between lower upper (value / factor) := by
  obtain ⟨inner, inside⟩ := bounds.exists_between
  obtain ⟨isLower, isUpper, _⟩ := bounds
  have scaled : Between lower upper (factor * inner / factor) := by
    rw [mul_div_cancel_left₀ inner nonzero]
    exact inside
  rcases lt_or_gt_of_ne nonzero with negative | positive
  · have members := between_mul_of_neg negative isLower isUpper
    have turned := bounds_of_between (isLower_mul_of_neg negative isUpper)
      (isUpper_mul_of_neg negative isLower) ((members _).mpr scaled)
    rw [turned.smaller_eq.2, turned.larger_eq.2]
    exact ⟨turned, members⟩
  · have members := between_mul_of_pos positive isLower isUpper
    have straight := bounds_of_between (isLower_mul_of_pos positive isLower)
      (isUpper_mul_of_pos positive isUpper) ((members _).mpr scaled)
    rw [straight.smaller_eq.1, straight.larger_eq.1]
    exact ⟨straight, members⟩

end Multiple

end LinearProgram.Exact
