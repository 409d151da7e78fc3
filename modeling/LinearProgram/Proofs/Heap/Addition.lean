import LinearProgram.Proofs.Expression.Addition
import LinearProgram.Proofs.Expression.Reachable
import LinearProgram.Proofs.Heap.Isolation

/-!
# Adding one object to another

A multiple of an object is added to another object, or to the same one.  Its terms
are read before any of them is added, so an object that is added to itself counts
with the coefficients that it had before.
-/

namespace LinearProgram.Heap

section Outcome

variable {α : Type} [Scalar α] {outlook : Outlook α} {heap final : Heap α}
  {number : Nat} {update : HeapUpdate α Unit} {outcome : Except (Error α) (Expression α)}

theorem Follows.exists_final {changed : Expression α}
    (follows : Follows outlook heap number update (.ok changed)) :
    ∃ final, update heap = .ok () final := by
  cases follows with
  | ok success keeps holds => exact ⟨_, success⟩

/-- What an update has made of an object, if it succeeded. -/
theorem Follows.exists_changed (follows : Follows outlook heap number update outcome)
    (success : update heap = .ok () final) (present : number < heap.size) :
    ∃ changed, outcome = .ok changed ∧
      final.seen outlook number = changed.map outlook.see := by
  cases follows with
  | ok done keeps holds =>
      rw [success] at done
      cases done
      exact ⟨_, rfl, holds present⟩
  | error failure keeps =>
      rw [success] at failure
      cases failure

end Outcome

section Pointwise

variable {admitted : Variable → Prop}

/-- Whatever was made and changed before: a multiple of an object can be added to an
object exactly if one of them has no terms or both belong to one model, and all
numbers that arise stay finite.  Then each variable has the sum of its coefficients
if that is not negligible, old terms keep their places, and new ones follow in the
order that they have in what was added. -/
theorem adds_pointwise (steps : List (Step Float)) (outlook : Outlook Float)
    {number other : Nat} (contents : Expression Float) {factor : Float}
    (present : number < (reached steps).size)
    (reachable : ((reached steps).seen outlook number).Reachable admitted)
    (otherReachable : ((reached steps).seen outlook other).Reachable admitted)
    (finite : Scalar.isFinite factor = true) :
    ((∃ final, Heap.edit outlook number
      (.addExpression (.expression other contents) (.number factor))
        (reached steps) = .ok () final) ↔
      ((reached steps).seen outlook number).Addable
        ((reached steps).seen outlook other) factor) ∧
    ∀ final, Heap.edit outlook number
      (.addExpression (.expression other contents) (.number factor))
        (reached steps) = .ok () final →
      ((reached steps).seen outlook number).SumsTo
        ((reached steps).seen outlook other) factor (final.seen outlook number) := by
  have follows : Follows outlook (reached steps) number
      (Heap.edit outlook number
        (.addExpression (.expression other contents) (.number factor)))
      (((reached steps).seen outlook number).after
        (Expression.addExpression ((reached steps).seen outlook other) factor)) :=
    follows_edit (separate_reached steps)
      (.addExpression (.expression other contents) (.number factor))
  have sound := reachable.sound
  have otherSound := otherReachable.sound
  rw [← Expression.exists_addExpression_iff sound otherSound finite]
  refine ⟨⟨?changes, ?succeeds⟩, ?sums⟩
  case changes =>
    rintro ⟨final, success⟩
    obtain ⟨changed, added, _⟩ := follows.exists_changed success present
    exact ⟨changed, Expression.ok_of_after added⟩
  case succeeds =>
    rintro ⟨changed, added⟩
    rw [Expression.after_of_ok added] at follows
    exact follows.exists_final
  case sums =>
    intro final success
    obtain ⟨changed, after, seen⟩ := follows.exists_changed success present
    have added := Expression.ok_of_after after
    -- The sum has no participants but those of the two objects as they are seen.
    have fixed : changed.Over outlook.Fixes :=
      Expression.over_addExpression Expression.over_map_see Expression.over_map_see added
    rw [seen, fixed.map_see]
    exact Expression.sumsTo_of_addExpression sound otherSound added

end Pointwise

section Crossing

private def place (position : Nat) : Variable :=
  { model := ⟨0, "m"⟩, index := .place position }

private def plain : Outlook Float where
  see := id
  reckon _ := .ok 0
  see_see _ := rfl
  see_variable _ := rfl

private def madeOf (handles : List Variable) (coefficients : List Float) : Making Float :=
  .build (.list (handles.map .handle) 0) (.list (coefficients.map .number) 0) (.number 1)
    (.text "")

/-- First x + 2y + 1, then -2y + 3z + 1. -/
private def crossing : List (Step Float) :=
  [.make plain (madeOf [place 0, place 1] [1, 2]),
    .make plain (madeOf [place 1, place 2] [-2, 3])]

private theorem reachable_of_build (handles : List Variable) (coefficients : List Float)
    {expression : Expression Float}
    (success : Expression.build plain.reckon (.list (handles.map .handle) 0)
      (.list (coefficients.map .number) 0) (.number 1) (.text "") = .ok expression) :
    expression.Reachable (fun _ => True) :=
  .built (fun _ _ => trivial) success

private def addition : Expression.Edit Float :=
  .addExpression (.expression 1 Expression.zero) (.number 1)

private def crossed : Heap Float := (reached crossing).after (.edit plain 0 addition)

private theorem crossed_success :
    Heap.edit plain 0 addition (reached crossing) = .ok () crossed := by
  have accepted : (match Heap.edit plain 0 addition (reached crossing) with
      | .ok _ _ => true
      | .error _ _ => false) = true := by decide +kernel
  rw [crossed, after]
  split at accepted
  · rename_i success
    rw [success]
  · cases accepted

/-- One variable of the two cancels out, one stays, and one is new. -/
theorem adds_pointwise_crossing :
    Heap.edit plain 0 addition (reached crossing) = .ok () crossed ∧
    ((reached crossing).seen plain 0).Addable ((reached crossing).seen plain 1) 1 ∧
    ((reached crossing).seen plain 0).SumsTo ((reached crossing).seen plain 1) 1
      (crossed.seen plain 0) ∧
    (crossed.seen plain 0).participants =
      [(place 0).participant, (place 2).participant] := by
  have first : ((reached crossing).seen plain 0).Reachable (fun _ => True) :=
    reachable_of_build [place 0, place 1] [1, 2] rfl
  have second : ((reached crossing).seen plain 1).Reachable (fun _ => True) :=
    reachable_of_build [place 1, place 2] [-2, 3] rfl
  have law := adds_pointwise crossing plain Expression.zero (by decide) first second
    (show Scalar.isFinite (1 : Float) = true by decide)
  refine ⟨crossed_success, law.1.mp ⟨crossed, crossed_success⟩,
    law.2 crossed crossed_success, ?_⟩
  decide +kernel

end Crossing

end LinearProgram.Heap
