import LinearProgram.Literal
import LinearProgram.Proofs.Text.Joined

/-!
# Keys of assignments

The key of a pair of assignments tells which two they are, but not in which
order they were given.
-/

namespace LinearProgram.Assignment

variable {α : Type} [Scalar α]

/-- The assignment is of a place in a table. -/
def Placed (assignment : Assignment) : Prop :=
  ∃ position, assignment.index = .place position

private theorem key_eq (positive : Bool) (position : Nat) :
    key α ⟨positive, .place position⟩ =
      (if positive then "+" else "-") ++ toString position := rfl

private theorem mem_key {assignment : Assignment} (placed : assignment.Placed)
    {character : Char} (membership : character ∈ (assignment.key α).toList) :
    character = '+' ∨ character = '-' ∨ character.isDigit = true := by
  obtain ⟨positive, index⟩ := assignment
  obtain ⟨position, rfl⟩ := placed
  rw [key_eq, String.toList_append, List.mem_append] at membership
  rcases membership with sign | digit
  · cases positive with
    | true => exact .inl (List.mem_singleton.mp sign)
    | false => exact .inr (.inl (List.mem_singleton.mp sign))
  · exact .inr (.inr (Text.isDigit_of_mem_natural digit))

private theorem unmarked {assignment : Assignment}
    (placed : assignment.Placed) : '|' ∉ (assignment.key α).toList := by
  intro membership
  have written := mem_key placed membership
  revert written
  decide

private theorem key_injective {first second : Assignment}
    (placed : first.Placed) (otherPlaced : second.Placed)
    (same : first.key α = second.key α) : first = second := by
  obtain ⟨positive, index⟩ := first
  obtain ⟨other, otherIndex⟩ := second
  obtain ⟨position, rfl⟩ := placed
  obtain ⟨otherPosition, rfl⟩ := otherPlaced
  have characters := congrArg String.toList same
  rw [key_eq, key_eq, String.toList_append, String.toList_append] at characters
  have signs : positive = other := by
    cases positive <;> cases other <;> simp at characters ⊢
  subst signs
  have digits := List.append_cancel_left characters
  have positions := Text.natural_injective (String.toList_injective digits)
  rw [positions]

/-- The key of a pair is the same in both orders, whatever the two are. -/
theorem pairKey_comm (first second : Assignment) :
    first.pairKey α second = second.pairKey α first := by
  simp only [pairKey]
  by_cases below : Text.atMost (first.key α) (second.key α) = true
  · by_cases above : Text.atMost (second.key α) (first.key α) = true
    · rw [Text.atMost_antisymm below above]
    · rw [if_pos below, if_neg above]
  · have above := (Text.atMost_total _ _).resolve_left below
    rw [if_neg below, if_pos above]

private theorem joined_injective {first second third fourth : Assignment}
    (firstPlaced : first.Placed) (secondPlaced : second.Placed)
    (thirdPlaced : third.Placed) (fourthPlaced : fourth.Placed)
    (same : first.key α ++ "|" ++ second.key α =
      third.key α ++ "|" ++ fourth.key α) : first = third ∧ second = fourth := by
  have lists : [first.key α, second.key α] = [third.key α, fourth.key α] := by
    apply @Text.joined_injective '|' _ _ (List.cons_ne_nil _ _)
      (List.cons_ne_nil _ _)
    · simp [unmarked firstPlaced, unmarked secondPlaced]
    · simp [unmarked thirdPlaced, unmarked fourthPlaced]
    · exact same
  simp only [List.cons.injEq, and_true] at lists
  exact ⟨key_injective firstPlaced thirdPlaced lists.1,
    key_injective secondPlaced fourthPlaced lists.2⟩

/-- The key of a pair tells the two assignments, whatever their order. -/
theorem pairKey_eq_iff {first second third fourth : Assignment}
    (firstPlaced : first.Placed) (secondPlaced : second.Placed)
    (thirdPlaced : third.Placed) (fourthPlaced : fourth.Placed) :
    first.pairKey α second = third.pairKey α fourth ↔
      (first = third ∧ second = fourth) ∨ (first = fourth ∧ second = third) := by
  constructor
  · intro same
    simp only [pairKey] at same
    split at same
    · split at same
      · exact .inl (joined_injective firstPlaced secondPlaced thirdPlaced
          fourthPlaced same)
      · exact .inr (joined_injective firstPlaced secondPlaced fourthPlaced
          thirdPlaced same)
    · split at same
      · exact .inr (joined_injective secondPlaced firstPlaced thirdPlaced
          fourthPlaced same).symm
      · exact .inl (joined_injective secondPlaced firstPlaced fourthPlaced
          thirdPlaced same).symm
  · intro pairs
    rcases pairs with ⟨rfl, rfl⟩ | ⟨rfl, rfl⟩
    · rfl
    · exact pairKey_comm first second

end LinearProgram.Assignment
