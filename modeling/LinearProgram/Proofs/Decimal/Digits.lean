import LinearProgram.Decimal.Shortest
import Mathlib.Algebra.Order.Field.Power
import Mathlib.Algebra.Order.Field.Rat
import Mathlib.Data.List.TakeWhile
import Mathlib.Tactic.Ring

/-!
# The value of decimal digits

Digits with a power of ten are read as a rational.  Leaving out the zeros at
the end does not change it.
-/

namespace LinearProgram.Decimal

namespace Digits

/-- The rational that the digits write. -/
def toRat (value : Digits) : Rat :=
  Nat.ofDigitChars 10 value.digits 0 *
    (10 : Rat) ^ (value.point - value.digits.length)

/-- There are digits, and nothing but digits. -/
structure Proper (value : Digits) : Prop where
  nonempty : value.digits ≠ []
  numeric : ∀ character ∈ value.digits, character.isDigit = true

/-- Without its last zeros, what is written is followed by so many zeros. -/
private theorem exists_zeros (written : List Char) :
    ∃ zeros, written =
      (written.reverse.dropWhile (fun digit => digit == '0')).reverse ++
        List.replicate zeros '0' := by
  have parts := List.takeWhile_append_dropWhile (p := fun digit => digit == '0')
    (l := written.reverse)
  have last : written.reverse.takeWhile (fun digit => digit == '0') =
      List.replicate (written.reverse.takeWhile
        (fun digit => digit == '0')).length '0' := by
    apply List.eq_replicate_of_mem
    intro digit membership
    simpa using List.mem_takeWhile_imp membership
  refine ⟨(written.reverse.takeWhile (fun digit => digit == '0')).length, ?_⟩
  have backwards := congrArg List.reverse parts
  rw [List.reverse_append, List.reverse_reverse, last, List.reverse_replicate]
    at backwards
  exact backwards.symm

/-- The digits of so many units are those units. -/
theorem toRat_ofUnits (count : Nat) (unit : Int) :
    (ofUnits count unit).toRat = count * (10 : Rat) ^ unit := by
  obtain ⟨zeros, split⟩ := exists_zeros (Nat.toDigits 10 count)
  simp only [ofUnits, toRat]
  generalize ((Nat.toDigits 10 count).reverse.dropWhile
    (fun digit => digit == '0')).reverse = kept at split ⊢
  have value : count = 10 ^ zeros * Nat.ofDigitChars 10 kept 0 := by
    rw [← Nat.ofDigitChars_replicate_zero, ← Nat.ofDigitChars_append, ← split,
      Nat.ofDigitChars_ten_toDigits]
  have length : (Nat.toDigits 10 count).length = kept.length + zeros := by
    rw [split, List.length_append, List.length_replicate]
  have power : unit + ((kept.length + zeros : Nat) : Int) - kept.length =
      zeros + unit := by
    omega
  rw [length, power, zpow_add₀ (by norm_num), zpow_natCast]
  conv_rhs => rw [value]
  push_cast
  ring

theorem ofUnits_numeric (count : Nat) (unit : Int) :
    ∀ character ∈ (ofUnits count unit).digits, character.isDigit = true := by
  intro character membership
  obtain ⟨zeros, split⟩ := exists_zeros (Nat.toDigits 10 count)
  have present : character ∈ Nat.toDigits 10 count := by
    rw [split]
    exact List.mem_append_left _ membership
  exact Nat.isDigit_of_mem_toDigits (by decide) (by decide) present

/-- Digits with a value other than zero are there. -/
theorem nonempty_of_toRat {value : Digits} (nonzero : value.toRat ≠ 0) :
    value.digits ≠ [] := by
  intro empty
  apply nonzero
  simp [toRat, empty]

end Digits

end LinearProgram.Decimal
