import LinearProgram.Text.Layout
import Mathlib.Data.List.Basic

/-!
# Joined texts

Texts that are joined with a mark between them can be taken apart again, if the
mark occurs in none of them.  Numerals have digits only, so a mark is none of
their characters.  Two texts of which each comes before the other are the same.
-/

namespace LinearProgram.Text

/-- Joined texts without the mark in them are told apart by the result. -/
theorem joined_injective {mark : Char} {texts others : List String}
    (texts_ne_nil : texts ≠ []) (others_ne_nil : others ≠ [])
    (unmarked : ∀ text ∈ texts, mark ∉ text.toList)
    (othersUnmarked : ∀ text ∈ others, mark ∉ text.toList)
    (same : (String.singleton mark).intercalate texts =
      (String.singleton mark).intercalate others) : texts = others := by
  have characters := congrArg String.toList same
  simp only [String.toList_intercalate, String.toList_singleton] at characters
  have parts := congrArg (List.splitOn mark) characters
  rw [List.splitOn_intercalate, List.splitOn_intercalate] at parts
  · exact List.map_injective_iff.mpr (fun _ _ => String.toList_injective) parts
  · simpa using othersUnmarked
  · simpa using others_ne_nil
  · simpa using unmarked
  · simpa using texts_ne_nil

section Natural

theorem isDigit_of_mem_natural {number : Nat} {character : Char}
    (membership : character ∈ (toString number).toList) :
    character.isDigit = true := by
  rw [Nat.toString_eq_repr, Nat.toList_repr] at membership
  exact Nat.isDigit_of_mem_toDigits (by decide) (by decide) membership

theorem natural_injective {number other : Nat}
    (same : toString number = toString other) : number = other := by
  have digits := congrArg String.toList same
  simp only [Nat.toString_eq_repr, Nat.toList_repr] at digits
  have numbers := congrArg (fun written => Nat.ofDigitChars 10 written 0) digits
  simpa only [Nat.ofDigitChars_ten_toDigits] using numbers

end Natural

section Order

private theorem code_valid (character : Char) :
    character.toNat < 0xd800 ∨
      0xdfff < character.toNat ∧ character.toNat < 0x110000 :=
  character.valid

/-- The units of two characters differ where they begin, so what follows can be
told from them. -/
private theorem units_append_injective {character other : Char}
    {rest otherRest : List Nat}
    (same : unitsOfChar character ++ rest = unitsOfChar other ++ otherRest) :
    character = other ∧ rest = otherRest := by
  have valid := code_valid character
  have otherValid := code_valid other
  rw [← Char.toNat_inj]
  simp only [unitsOfChar] at same
  split at same <;> split at same <;>
    simp only [List.cons_append, List.nil_append, List.cons.injEq] at same
  · exact same
  -- No character has a code that begins a pair of units.
  · omega
  · omega
  · exact ⟨by omega, same.2.2⟩

private theorem units_injective : ∀ {characters others : List Char},
    characters.flatMap unitsOfChar = others.flatMap unitsOfChar →
      characters = others
  | [], [], _ => rfl
  | [], other :: _, same | other :: _, [], same => by
      simp only [List.flatMap_cons, List.flatMap_nil, unitsOfChar] at same
      split at same <;> cases same
  | character :: _, other :: _, same => by
      simp only [List.flatMap_cons] at same
      obtain ⟨rfl, rest⟩ := units_append_injective same
      rw [units_injective rest]

theorem atMost_total (first second : String) :
    atMost first second = true ∨ atMost second first = true := by
  simp only [atMost, Bool.not_eq_true', decide_eq_false_iff_not]
  by_cases below : second.toList.flatMap unitsOfChar <
      first.toList.flatMap unitsOfChar
  · exact .inr (List.lt_asymm below)
  · exact .inl below

theorem atMost_antisymm {first second : String}
    (below : atMost first second = true) (above : atMost second first = true) :
    first = second := by
  simp only [atMost, Bool.not_eq_true', decide_eq_false_iff_not] at below above
  exact String.toList_injective (units_injective (List.le_antisymm below above))

end Order

end LinearProgram.Text
