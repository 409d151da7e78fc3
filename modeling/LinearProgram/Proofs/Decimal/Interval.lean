import LinearProgram.Proofs.Decimal.Digits
import Mathlib.Tactic.Linarith

/-!
# Rounding intervals

The rationals that round to a binary value form an interval.  The intervals of
different values do not meet: where one ends and the next begins, exactly one of
the two significands is even and owns the end.

The digits that are chosen for a value lie in its interval, whichever grid the
search ends at, and also if it ends without a hit.  So they tell the value.
-/

namespace LinearProgram.Decimal.Binary

/-- A quarter of the distance to the neighbour above. -/
def quarter (value : Binary) : Rat := (2 : Rat) ^ (value.exponent - 2)

/-- The rational rounds to the value. -/
def Rounds (value : Binary) (number : Rat) : Prop :=
  if value.significand % 2 = 0 then
    value.lowerQuarters * value.quarter ≤ number ∧
      number ≤ value.upperQuarters * value.quarter
  else
    value.lowerQuarters * value.quarter < number ∧
      number < value.upperQuarters * value.quarter

theorem quarter_pos (value : Binary) : 0 < value.quarter :=
  zpow_pos (by norm_num) _

section Grid

private theorem zpow_parts (base : Rat) (nonzero : base ≠ 0) (power : Int) :
    base ^ power * base ^ (-power).toNat = base ^ power.toNat := by
  rw [← zpow_natCast, ← zpow_natCast, ← zpow_add₀ nonzero]
  congr 1
  omega

/-- A quarter step on a grid, as a fraction. -/
private theorem quarterOn_eq (value : Binary) (grid : Int) :
    ((value.quarterOn grid).1 : Rat) * (10 : Rat) ^ grid =
      value.quarter * (value.quarterOn grid).2 := by
  have binary := zpow_parts 2 (by norm_num) (value.exponent - 2)
  have decimal := zpow_parts 10 (by norm_num) grid
  simp only [quarterOn, quarter, Nat.pow_eq]
  push_cast
  rw [← binary, ← decimal]
  ring

private theorem denominator_pos (value : Binary) (grid : Int) :
    0 < ((value.quarterOn grid).2 : Rat) := by
  simp only [quarterOn, Nat.pow_eq]
  positivity

private theorem scaled_quarters (value : Binary) (grid : Int) (steps : Nat) :
    ((steps * (value.quarterOn grid).1 : Nat) : Rat) * 10 ^ grid =
      steps * value.quarter * (value.quarterOn grid).2 := by
  push_cast
  rw [mul_assoc, quarterOn_eq]
  ring

private theorem scaled_count (value : Binary) (grid : Int) (count : Nat) :
    ((count * (value.quarterOn grid).2 : Nat) : Rat) * 10 ^ grid =
      count * 10 ^ grid * (value.quarterOn grid).2 := by
  push_cast
  ring

private theorem quarters_le_iff (value : Binary) (grid : Int)
    (steps count : Nat) :
    steps * (value.quarterOn grid).1 ≤ count * (value.quarterOn grid).2 ↔
      steps * value.quarter ≤ count * (10 : Rat) ^ grid := by
  have decimal : (0 : Rat) < 10 ^ grid := zpow_pos (by norm_num) _
  rw [← Nat.cast_le (α := Rat), ← mul_le_mul_iff_left₀ decimal,
    scaled_quarters, scaled_count,
    mul_le_mul_iff_left₀ (denominator_pos value grid)]

private theorem count_le_iff (value : Binary) (grid : Int)
    (steps count : Nat) :
    count * (value.quarterOn grid).2 ≤ steps * (value.quarterOn grid).1 ↔
      count * (10 : Rat) ^ grid ≤ steps * value.quarter := by
  have decimal : (0 : Rat) < 10 ^ grid := zpow_pos (by norm_num) _
  rw [← Nat.cast_le (α := Rat), ← mul_le_mul_iff_left₀ decimal,
    scaled_quarters, scaled_count,
    mul_le_mul_iff_left₀ (denominator_pos value grid)]

/-- So many grid units read back if they round to the value. -/
theorem readsBack_iff (value : Binary) (grid : Int) (count : Nat) :
    value.readsBack grid count = true ↔
      value.Rounds (count * (10 : Rat) ^ grid) := by
  simp only [readsBack, Rounds]
  split
  · rw [decide_eq_true_iff, quarters_le_iff, count_le_iff]
  · rw [decide_eq_true_iff, ← not_le, ← not_le, quarters_le_iff, count_le_iff,
      not_le, not_le]

end Grid

section Disjoint

/-- The binary value of a double: the significand fills its bits unless the
exponent is the least one. -/
structure Canonical (value : Binary) : Prop where
  positive : 0 < value.significand
  bounded : value.significand < 2 ^ 53
  least : -1074 ≤ value.exponent
  full : 2 ^ 52 ≤ value.significand ∨ value.exponent = -1074
  narrow : value.narrowBelow = true ↔
    value.significand = 2 ^ 52 ∧ -1074 < value.exponent

variable {value other : Binary} {number : Rat}

theorem Rounds.bounds (rounds : value.Rounds number) :
    value.lowerQuarters * value.quarter ≤ number ∧
      number ≤ value.upperQuarters * value.quarter := by
  simp only [Rounds] at rounds
  split at rounds
  · exact rounds
  · exact ⟨rounds.1.le, rounds.2.le⟩

private theorem cast_upperQuarters (value : Binary) :
    (value.upperQuarters : Rat) = 4 * value.significand + 2 := by
  simp [upperQuarters, quarters]

private theorem Canonical.le_lowerQuarters (canonical : value.Canonical) :
    (4 * value.significand - 2 : Rat) ≤ value.lowerQuarters := by
  have positive := canonical.positive
  have steps : 4 * value.significand ≤ value.lowerQuarters + 2 := by
    simp only [lowerQuarters, quarters]
    split <;> omega
  have cast : (4 * value.significand : Rat) ≤ value.lowerQuarters + 2 := by
    exact_mod_cast steps
  linarith

/-- What rounds to a value is at most half a step away. -/
theorem Canonical.quarter_bounds (canonical : value.Canonical)
    (rounds : value.Rounds number) :
    (4 * value.significand - 2) * value.quarter ≤ number ∧
      number ≤ (4 * value.significand + 2) * value.quarter := by
  obtain ⟨lower, upper⟩ := rounds.bounds
  rw [cast_upperQuarters] at upper
  have wide := mul_le_mul_of_nonneg_right canonical.le_lowerQuarters
    value.quarter_pos.le
  exact ⟨le_trans wide lower, upper⟩

/-- An odd significand does not own the ends. -/
theorem Canonical.quarter_bounds_of_odd (canonical : value.Canonical)
    (odd : value.significand % 2 = 1) (rounds : value.Rounds number) :
    (4 * value.significand - 2) * value.quarter < number ∧
      number < (4 * value.significand + 2) * value.quarter := by
  have notEven : ¬value.significand % 2 = 0 := by omega
  simp only [Rounds, if_neg notEven, cast_upperQuarters] at rounds
  have wide := mul_le_mul_of_nonneg_right canonical.le_lowerQuarters
    value.quarter_pos.le
  exact ⟨lt_of_le_of_lt wide rounds.1, rounds.2⟩

/-- Above the least exponent, intervals begin a quarter step below the least
full significand. -/
theorem Canonical.lower_of_full (canonical : value.Canonical)
    (above : -1074 < value.exponent) (rounds : value.Rounds number) :
    (2 ^ 54 - 1) * value.quarter ≤ number := by
  have full : 2 ^ 52 ≤ value.significand :=
    canonical.full.resolve_right (by omega)
  have steps : 2 ^ 54 ≤ value.lowerQuarters + 1 := by
    simp only [lowerQuarters, quarters]
    by_cases least : value.significand = 2 ^ 52
    · rw [if_pos (canonical.narrow.mpr ⟨least, above⟩)]
      omega
    · split <;> omega
  have cast : (2 ^ 54 : Rat) ≤ value.lowerQuarters + 1 := by
    exact_mod_cast steps
  have least : (2 ^ 54 - 1 : Rat) ≤ value.lowerQuarters := by linarith
  have wide := mul_le_mul_of_nonneg_right least value.quarter_pos.le
  exact le_trans wide rounds.bounds.1

private theorem apart_of_significand (canonical : value.Canonical)
    (otherCanonical : other.Canonical)
    (sameExponent : value.exponent = other.exponent)
    (below : value.significand < other.significand)
    (rounds : value.Rounds number) (otherRounds : other.Rounds number) :
    False := by
  have sameQuarter : other.quarter = value.quarter := by
    rw [quarter, quarter, sameExponent]
  have positive := value.quarter_pos
  have upper := (canonical.quarter_bounds rounds).2
  have lower := (otherCanonical.quarter_bounds otherRounds).1
  rw [sameQuarter] at lower
  have adjacent : other.significand = value.significand + 1 := by
    by_contra distant
    have steps : (value.significand : Rat) + 2 ≤ other.significand := by
      exact_mod_cast (by omega : value.significand + 2 ≤ other.significand)
    nlinarith
  -- One of two adjacent significands is odd.
  rcases Nat.mod_two_eq_zero_or_one value.significand with even | odd
  · have otherOdd : other.significand % 2 = 1 := by omega
    have strict := (otherCanonical.quarter_bounds_of_odd otherOdd otherRounds).1
    rw [sameQuarter, adjacent] at strict
    push_cast at strict
    linarith
  · have strict := (canonical.quarter_bounds_of_odd odd rounds).2
    rw [adjacent] at lower
    push_cast at lower
    linarith

private theorem quarter_of_exponent (below : value.exponent < other.exponent) :
    2 * value.quarter ≤ other.quarter := by
  have step : 2 * value.quarter = (2 : Rat) ^ (value.exponent - 2 + 1) := by
    rw [quarter, zpow_add_one₀ (by norm_num)]
    ring
  rw [step, quarter]
  exact zpow_le_zpow_right₀ (by norm_num) (by omega)

private theorem apart_of_exponent (canonical : value.Canonical)
    (otherCanonical : other.Canonical)
    (below : value.exponent < other.exponent)
    (rounds : value.Rounds number) (otherRounds : other.Rounds number) :
    False := by
  have positive := value.quarter_pos
  have least := canonical.least
  have bounded := canonical.bounded
  have lower := otherCanonical.lower_of_full (by omega) otherRounds
  have doubled := quarter_of_exponent below
  rcases Nat.lt_or_ge value.significand (2 ^ 53 - 1) with small | greatest
  · have upper := (canonical.quarter_bounds rounds).2
    have steps : (value.significand : Rat) + 2 ≤ 2 ^ 53 := by
      exact_mod_cast (by omega : value.significand + 2 ≤ 2 ^ 53)
    nlinarith
  · have last : value.significand = 2 ^ 53 - 1 := by omega
    have upper := (canonical.quarter_bounds_of_odd (by omega) rounds).2
    rw [last] at upper
    norm_num at upper lower
    linarith

/-- No rational rounds to two values. -/
theorem Canonical.eq_of_rounds (canonical : value.Canonical)
    (otherCanonical : other.Canonical) (rounds : value.Rounds number)
    (otherRounds : other.Rounds number) : value = other := by
  have exponents : value.exponent = other.exponent := by
    rcases lt_trichotomy value.exponent other.exponent with
      below | same | above
    · exact (apart_of_exponent canonical otherCanonical below rounds
        otherRounds).elim
    · exact same
    · exact (apart_of_exponent otherCanonical canonical above otherRounds
        rounds).elim
  have significands : value.significand = other.significand := by
    rcases lt_trichotomy value.significand other.significand with
      below | same | above
    · exact (apart_of_significand canonical otherCanonical exponents below
        rounds otherRounds).elim
    · exact same
    · exact (apart_of_significand otherCanonical canonical exponents.symm above
        otherRounds rounds).elim
  have narrows : value.narrowBelow = other.narrowBelow := by
    rw [Bool.eq_iff_iff, canonical.narrow, otherCanonical.narrow, significands,
      exponents]
  cases value
  cases other
  simp_all

end Disjoint

section Chosen

variable {value : Binary}

/-- The value itself rounds to it. -/
theorem rounds_exact (positive : 0 < value.significand) :
    value.Rounds (value.quarters * value.quarter) := by
  have quarter_pos := value.quarter_pos
  have lower : (value.lowerQuarters : Rat) < value.quarters := by
    simp only [lowerQuarters, quarters, Nat.cast_lt]
    split <;> omega
  have upper : (value.quarters : Rat) < value.upperQuarters := by
    simp [upperQuarters]
  have above := mul_lt_mul_of_pos_right lower quarter_pos
  have below := mul_lt_mul_of_pos_right upper quarter_pos
  simp only [Rounds]
  split
  · exact ⟨above.le, below.le⟩
  · exact ⟨above, below⟩

theorem toRat_exactDigits (value : Binary) :
    value.exactDigits.toRat = value.quarters * value.quarter := by
  have unit : (2 : Rat) ^ value.exponent = 4 * value.quarter := by
    rw [quarter, zpow_sub₀ (by norm_num)]
    norm_num
    ring
  simp only [exactDigits, quarters, Nat.pow_eq]
  split
  · rename_i whole
    have power : (2 : Rat) ^ value.exponent.toNat = 2 ^ value.exponent := by
      rw [← zpow_natCast, Int.toNat_of_nonneg whole]
    rw [Digits.toRat_ofUnits, zpow_zero]
    push_cast
    rw [power, unit]
    ring
  · rename_i fractional
    have power : (5 : Rat) ^ (-value.exponent).toNat * 10 ^ value.exponent =
        2 ^ value.exponent := by
      have ten : (10 : Rat) = 5 * 2 := by norm_num
      rw [← zpow_natCast, ten, mul_zpow, ← mul_assoc, ← zpow_add₀ (by norm_num),
        Int.toNat_of_nonneg (by omega), neg_add_cancel, zpow_zero, one_mul]
    rw [Digits.toRat_ofUnits]
    push_cast
    rw [mul_assoc, power, unit]
    ring

theorem readsBack_of_nearestOn? {grid : Int} {count : Nat}
    (found : value.nearestOn? grid = some count) :
    value.readsBack grid count = true := by
  simp only [nearestOn?] at found
  split at found
  · cases found
  · rename_i below _
    cases found
    exact below
  · rename_i _ above
    cases found
    exact above
  · rename_i below above
    split at found
    · cases found
      exact below
    · cases found
      exact above
    · cases found
      split
      · exact below
      · exact above

private theorem exactDigits_units (value : Binary) :
    ∃ count unit, value.exactDigits = Digits.ofUnits count unit := by
  simp only [exactDigits]
  split
  · exact ⟨_, _, rfl⟩
  · exact ⟨_, _, rfl⟩

/-- The search ends at units that round to the value, however many grids it is
allowed to try. -/
theorem shortestFrom_units (positive : 0 < value.significand) (grids : Nat)
    (grid : Int) :
    ∃ count unit, value.shortestFrom grids grid = Digits.ofUnits count unit ∧
      value.Rounds (count * (10 : Rat) ^ unit) := by
  induction grids generalizing grid with
  | zero =>
      obtain ⟨count, unit, units⟩ := value.exactDigits_units
      refine ⟨count, unit, units, ?_⟩
      rw [← Digits.toRat_ofUnits, ← units, toRat_exactDigits]
      exact rounds_exact positive
  | succ grids induction =>
      rw [shortestFrom]
      cases found : value.nearestOn? grid with
      | none => exact induction (grid - 1)
      | some count =>
          exact ⟨count, grid, rfl,
            (readsBack_iff value grid count).mp (readsBack_of_nearestOn? found)⟩

/-- The digits of a value round to it. -/
theorem rounds_shortest (positive : 0 < value.significand) :
    value.Rounds value.shortest.toRat := by
  obtain ⟨count, unit, units, rounds⟩ :=
    shortestFrom_units positive 17 (value.point - 1)
  rw [shortest, units, Digits.toRat_ofUnits]
  exact rounds

theorem Rounds.pos {number : Rat} (positive : 0 < value.significand)
    (rounds : value.Rounds number) : 0 < number := by
  have steps : 0 < value.lowerQuarters := by
    simp only [lowerQuarters, quarters]
    split <;> omega
  have cast : (0 : Rat) < value.lowerQuarters := by exact_mod_cast steps
  exact lt_of_lt_of_le (mul_pos cast value.quarter_pos) rounds.bounds.1

theorem proper_shortest (positive : 0 < value.significand) :
    value.shortest.Proper := by
  constructor
  · exact Digits.nonempty_of_toRat ((rounds_shortest positive).pos positive).ne'
  · obtain ⟨count, unit, units, _⟩ :=
      shortestFrom_units positive 17 (value.point - 1)
    rw [shortest, units]
    exact Digits.ofUnits_numeric count unit

end Chosen

end LinearProgram.Decimal.Binary
