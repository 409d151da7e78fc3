import LinearProgram.Decimal.Notation
import LinearProgram.Proofs.Decimal.Digits
import LinearProgram.Proofs.Text.Numeral

/-!
# Written digits read back

However digits are laid out, the text is a decimal numeral, and the number that
it is read as is the one that the digits write.
-/

namespace LinearProgram.Decimal

open Text.Numeral (Numeric Layout decimal exponent? natural? natural?_numeric
  pointed unsigned?)

/-- The rational that the parts of a numeral write. -/
def layoutRat (layout : Layout) : Rat :=
  layout.count * (10 : Rat) ^ layout.exponent

/-- The text of an exponent is read as the exponent. -/
theorem exponent?_signedWhole (number : Int) :
    exponent? ('e' :: (signedWhole number).toList) = some number := by
  have digits : natural? 10 (toString number.natAbs).toList =
      some number.natAbs := by
    rw [Nat.toString_eq_repr, Nat.toList_repr, natural?_numeric Nat.toDigits_ne_nil,
      Nat.ofDigitChars_ten_toDigits]
    intro character membership
    exact Nat.isDigit_of_mem_toDigits (by decide) (by decide) membership
  simp only [signedWhole, String.toList_append]
  split
  · rename_i negative
    change (natural? 10 (toString number.natAbs).toList).map
      (fun value => -Int.ofNat value) = _
    rw [digits]
    simp only [Option.map_some, Option.some.injEq, Int.ofNat_eq_natCast]
    omega
  · rename_i nonnegative
    change (natural? 10 (toString number.natAbs).toList).map Int.ofNat = _
    rw [digits]
    simp only [Option.map_some, Option.some.injEq, Int.ofNat_eq_natCast]
    omega

/-- A text has the parts of a numeral that writes what digits write. -/
structure Written (text : List Char) (value : Digits) (layout : Layout) :
    Prop where
  proper : layout.Proper
  text : text = layout.text
  toRat : layoutRat layout = value.toRat
  tail : ∀ character ∈ layout.tail,
    character.isDigit = true ∨ character ∈ ['e', '+', '-']

section Layouts

variable {value : Digits}

private theorem numeric_replicate (zeros : Nat) :
    Numeric (List.replicate zeros '0') := by
  intro character membership
  rw [List.eq_of_mem_replicate membership]
  rfl

private theorem numeric_append {first second : List Char}
    (numeric : Numeric first) (otherNumeric : Numeric second) :
    Numeric (first ++ second) := by
  intro character membership
  rcases List.mem_append.mp membership with before | after
  · exact numeric character before
  · exact otherNumeric character after

private theorem written_whole (proper : value.Proper)
    (reaches : (value.digits.length : Int) ≤ value.point) :
    Written (value.digits ++
        List.replicate (value.point - value.digits.length).toNat '0') value
      ⟨value.digits ++
        List.replicate (value.point - value.digits.length).toNat '0', [], [], 0⟩
    where
  proper :=
    { nonempty := by simp [proper.nonempty]
      whole := numeric_append proper.numeric (numeric_replicate _)
      places := nofun
      tail := rfl }
  text := by simp [Layout.text, pointed]
  toRat := by
    have power : (10 : Rat) ^ (value.point - value.digits.length) =
        10 ^ (value.point - value.digits.length).toNat := by
      rw [← zpow_natCast, Int.toNat_of_nonneg (by omega)]
    simp only [layoutRat, Layout.count, Layout.exponent, List.append_nil,
      Nat.ofDigitChars_append, Nat.ofDigitChars_replicate_zero, Digits.toRat,
      power]
    push_cast
    simp [mul_comm]
  tail := nofun

private theorem written_pointed (proper : value.Proper) (whole : Nat)
    (positive : 0 < whole) (inside : whole < value.digits.length)
    (point : value.point = whole) :
    Written (value.digits.take whole ++ '.' :: value.digits.drop whole) value
      ⟨value.digits.take whole, value.digits.drop whole, [], 0⟩ where
  proper :=
    { nonempty := by simp [proper.nonempty, positive.ne']
      whole := fun character membership =>
        proper.numeric character (List.mem_of_mem_take membership)
      places := fun character membership =>
        proper.numeric character (List.mem_of_mem_drop membership)
      tail := rfl }
  text := by
    have places : value.digits.drop whole ≠ [] := by
      simpa using inside
    obtain ⟨place, rest, split⟩ := List.exists_cons_of_ne_nil places
    simp [Layout.text, split, pointed]
  toRat := by
    have power : (0 : Int) - (value.digits.drop whole).length =
        value.point - value.digits.length := by
      rw [List.length_drop, point]
      omega
    simp only [layoutRat, Layout.count, Layout.exponent, power,
      List.take_append_drop, Digits.toRat]
  tail := nofun

private theorem written_small (proper : value.Proper)
    (small : value.point ≤ 0) :
    Written ('0' :: '.' :: List.replicate (-value.point).toNat '0' ++
        value.digits) value
      ⟨['0'], List.replicate (-value.point).toNat '0' ++ value.digits, [], 0⟩
    where
  proper :=
    { nonempty := List.cons_ne_nil _ _
      whole := numeric_replicate 1
      places := numeric_append (numeric_replicate _) proper.numeric
      tail := rfl }
  text := by
    have places : List.replicate (-value.point).toNat '0' ++ value.digits ≠ [] := by
      simp [proper.nonempty]
    obtain ⟨place, rest, split⟩ := List.exists_cons_of_ne_nil places
    simp only [Layout.text, List.cons_append, split, pointed]
    simp
  toRat := by
    have power : (0 : Int) - (List.replicate (-value.point).toNat '0' ++
        value.digits).length = value.point - value.digits.length := by
      rw [List.length_append, List.length_replicate]
      omega
    have count : Nat.ofDigitChars 10 (['0'] ++
        (List.replicate (-value.point).toNat '0' ++ value.digits)) 0 =
          Nat.ofDigitChars 10 value.digits 0 := by
      simp [Nat.ofDigitChars_cons, Nat.ofDigitChars_append]
    simp only [layoutRat, Layout.count, Layout.exponent, power, count,
      Digits.toRat]
  tail := nofun

private theorem mem_signedWhole {number : Int} {character : Char}
    (membership : character ∈ (signedWhole number).toList) :
    character.isDigit = true ∨ character ∈ ['e', '+', '-'] := by
  rw [signedWhole, String.toList_append, List.mem_append] at membership
  rcases membership with sign | digit
  · right
    split at sign
    · rw [List.mem_singleton.mp sign]
      decide
    · rw [List.mem_singleton.mp sign]
      decide
  · left
    rw [Nat.toString_eq_repr, Nat.toList_repr] at digit
    exact Nat.isDigit_of_mem_toDigits (by decide) (by decide) digit

private theorem written_scientific (proper : value.Proper) {leading : Char}
    {rest : List Char} (digits : value.digits = leading :: rest) :
    Written (leading :: (pointed rest ++
        'e' :: (signedWhole (value.point - 1)).toList)) value
      ⟨[leading], rest, 'e' :: (signedWhole (value.point - 1)).toList,
        value.point - 1⟩ where
  proper :=
    { nonempty := List.cons_ne_nil _ _
      whole := by
        intro character membership
        rw [List.mem_singleton.mp membership]
        exact proper.numeric leading (by simp [digits])
      places := by
        intro character membership
        exact proper.numeric character (by simp [digits, membership])
      tail := exponent?_signedWhole _ }
  text := rfl
  toRat := by
    have power : value.point - 1 - rest.length =
        value.point - value.digits.length := by
      rw [digits, List.length_cons]
      omega
    simp only [layoutRat, Layout.count, Layout.exponent, power,
      List.singleton_append, Digits.toRat, digits]
  tail := by
    intro character membership
    rcases List.mem_cons.mp membership with rfl | later
    · exact .inr List.mem_cons_self
    · exact mem_signedWhole later

end Layouts

namespace Notation

variable (limits : Notation) {value other : Digits}

/-- Written digits have the parts of a numeral, wherever positional notation
ends. -/
theorem exists_written (proper : value.Proper) :
    ∃ layout, Written (limits.write value).toList value layout := by
  simp only [write]
  split
  · rename_i whole
    rw [String.toList_ofList]
    exact ⟨_, written_whole proper whole.1⟩
  · rename_i notWhole
    split
    · rename_i inside
      rw [String.toList_ofList]
      refine ⟨_, written_pointed proper value.point.toNat ?_ ?_ ?_⟩
      · omega
      · omega
      · omega
    · split
      · rename_i small
        rw [String.toList_ofList]
        exact ⟨_, written_small proper small.2⟩
      · obtain ⟨leading, rest, digits⟩ :=
          List.exists_cons_of_ne_nil proper.nonempty
        refine ⟨⟨[leading], rest, 'e' :: (signedWhole (value.point - 1)).toList,
          value.point - 1⟩, ?_⟩
        convert written_scientific proper digits using 1
        simp only [digits, String.toList_append, String.toList_ofList]
        cases rest <;> simp [pointed]

/-- Written digits are a numeral for the number that they write. -/
theorem unsigned?_write (negative : Bool) (proper : value.Proper) :
    ∃ count exponent,
      unsigned? negative (limits.write value).toList =
          some (decimal negative count exponent) ∧
        count * (10 : Rat) ^ exponent = value.toRat := by
  obtain ⟨layout, written⟩ := limits.exists_written proper
  refine ⟨layout.count, layout.exponent, ?_, written.toRat⟩
  rw [written.text]
  exact Layout.unsigned?_text negative written.proper

theorem toRat_eq_of_write_eq (proper : value.Proper)
    (otherProper : other.Proper)
    (same : limits.write value = limits.write other) :
    value.toRat = other.toRat := by
  obtain ⟨count, exponent, read, number⟩ := limits.unsigned?_write false proper
  obtain ⟨otherCount, otherExponent, otherRead, otherNumber⟩ :=
    limits.unsigned?_write false otherProper
  rw [same, otherRead] at read
  cases read
  rw [← number, otherNumber]

theorem mem_write (proper : value.Proper) {character : Char}
    (membership : character ∈ (limits.write value).toList) :
    character.isDigit = true ∨ character ∈ ['.', 'e', '+', '-'] := by
  obtain ⟨layout, written⟩ := limits.exists_written proper
  rw [written.text, Layout.text, List.mem_append, List.mem_append] at membership
  rcases membership with whole | places | tail
  · exact .inl (written.proper.whole character whole)
  · cases split : layout.places with
    | nil =>
        rw [split] at places
        cases places
    | cons place rest =>
        rw [split] at places
        rcases List.mem_cons.mp places with rfl | later
        · exact .inr List.mem_cons_self
        · exact .inl (written.proper.places character (by rwa [split]))
  · rcases written.tail character tail with digit | mark
    · exact .inl digit
    · exact .inr (List.mem_cons_of_mem _ mark)

theorem exists_first_digit (proper : value.Proper) :
    ∃ digit rest, (limits.write value).toList = digit :: rest ∧
      digit.isDigit = true := by
  obtain ⟨layout, written⟩ := limits.exists_written proper
  obtain ⟨digit, rest, whole⟩ :=
    List.exists_cons_of_ne_nil written.proper.nonempty
  refine ⟨digit, rest ++ (pointed layout.places ++ layout.tail), ?_, ?_⟩
  · rw [written.text, Layout.text, whole, List.cons_append]
  · exact written.proper.whole digit (by simp [whole])

end Notation

end LinearProgram.Decimal
