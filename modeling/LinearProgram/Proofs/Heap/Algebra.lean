import LinearProgram.Proofs.Expression.Algebra
import LinearProgram.Proofs.Heap.Outcomes

/-!
# The algebra of objects

Whatever was made and changed before: two objects are equal exactly if they cancel out, sums
commute, a difference is the sum with the opposite, and nothing is lost by changing signs twice, by
adding zero or by multiplying by one.

The keys of sums commute for variables under numbers: an undefined index has no place of its own
among the others.
-/

namespace LinearProgram.Heap

variable {admitted : Variable → Prop}

section Samples

private def variableAt (index : Index) : Variable := { model := ⟨0, "m"⟩, index }

/-- The variables at some indices with their coefficients, and one. -/
private def sumOf (indices : List Index) (coefficients : List Float) : Making Float :=
  .build (.list ((indices.map variableAt).map .handle) 0) (.list (coefficients.map .number) 0)
    (.number 1) (.text "")

private theorem reachable_sumOf (indices : List Index) (coefficients : List Float)
    {expression : Expression Float}
    (built : (sumOf indices coefficients).stated .unchanged {} = .ok expression) :
    expression.Reachable (fun _ => True) :=
  .built (fun _ _ => trivial) built

end Samples

section Equality

/-- What it means for two objects to be equal. -/
structure Cancels (outlook : Outlook Float) (heap : Heap Float) (first second : Nat) : Prop where
  relation : (heap.seen outlook first).relation = (heap.seen outlook second).relation
  /-- The difference exists, has no terms and is nearly zero. -/
  difference : ∃ difference,
    heap.applied outlook .minus (heap.object outlook first) (heap.object outlook second) =
        .ok difference ∧
      difference.isConstant = true ∧ Scalar.magnitude difference.constant ≤ Scalar.epsilon

/-- Whatever was made and changed before: objects are equal exactly if they have one relation and
their difference is nearly zero, without a term.  So every object is equal to itself, it does not
count which of two objects is asked, and neither does the order in which terms were added. -/
theorem equality_by_cancellation (steps : List (Step Float)) (outlook : Outlook Float)
    {first second third : Nat} (present : first < (reached steps).size)
    (otherPresent : second < (reached steps).size)
    (reachable : ((reached steps).seen outlook first).Reachable admitted)
    (otherReachable : ((reached steps).seen outlook second).Reachable admitted)
    (thirdReachable : ((reached steps).seen outlook third).Reachable admitted) :
    (((reached steps).seen outlook first).equals ((reached steps).seen outlook second) = true ↔
      Cancels outlook (reached steps) first second) ∧
    ((reached steps).seen outlook first).equals ((reached steps).seen outlook first) = true ∧
    ((reached steps).seen outlook first).equals ((reached steps).seen outlook second) =
      ((reached steps).seen outlook second).equals ((reached steps).seen outlook first) ∧
    (((reached steps).seen outlook first).Reordered ((reached steps).seen outlook third) →
      ((reached steps).seen outlook first).equals ((reached steps).seen outlook second) =
        ((reached steps).seen outlook third).equals ((reached steps).seen outlook second)) := by
  have sound := reachable.sound
  have otherSound := otherReachable.sound
  have applied := applied_eq (separate_reached steps) .minus (known_object present)
    (@known_object _ _ outlook _ _ otherPresent)
  refine ⟨?_, Expression.equals_refl sound, Expression.equals_comm sound otherSound,
    fun reordered => reordered.equals_eq sound thirdReachable.sound otherSound⟩
  rw [Expression.equals_iff_cancels sound otherSound]
  constructor
  · rintro ⟨relations, difference, success, cancels⟩
    refine ⟨relations, difference, ?_, cancels⟩
    rw [applied]
    exact Expression.minus_eq_ok_iff.mpr success
  · rintro ⟨relations, difference, success, cancels⟩
    rw [applied] at success
    exact ⟨relations, difference, Expression.minus_eq_ok_iff.mp success, cancels⟩

/-- First x + 2y + 1, then 2y + x + 1. -/
private def swapped : List (Step Float) :=
  [.make .unchanged (sumOf [.place 0, .place 1] [1, 2]),
    .make .unchanged (sumOf [.place 1, .place 0] [2, 1])]

/-- The terms of equal objects cancel out, in whatever order they were added. -/
theorem equality_by_cancellation_swapped :
    ((reached swapped).seen .unchanged 0).terms.keys = [.place 0, .place 1] ∧
    ((reached swapped).seen .unchanged 1).terms.keys = [.place 1, .place 0] ∧
    Cancels .unchanged (reached swapped) 0 1 := by
  have first : ((reached swapped).seen .unchanged 0).Reachable (fun _ => True) :=
    reachable_sumOf [.place 0, .place 1] [1, 2] rfl
  have second : ((reached swapped).seen .unchanged 1).Reachable (fun _ => True) :=
    reachable_sumOf [.place 1, .place 0] [2, 1] rfl
  have law := equality_by_cancellation swapped .unchanged (by decide) (by decide) first second first
  exact ⟨by decide +kernel, by decide +kernel, law.1.mp (by decide +kernel)⟩

end Equality

section Laws

/-- The laws of the operators for two objects. -/
structure Laws (outlook : Outlook Float) (heap : Heap Float) (first second : Nat) : Prop where
  /-- A sum exists in either order, or in none. -/
  exists_plus_comm : (heap.seen outlook first).relation = (heap.seen outlook second).relation →
    ((∃ sum, heap.applied outlook .plus (heap.object outlook first) (heap.object outlook second) =
        .ok sum) ↔
      ∃ sum, heap.applied outlook .plus (heap.object outlook second) (heap.object outlook first) =
        .ok sum)
  equals_plus_comm : (heap.seen outlook first).relation = (heap.seen outlook second).relation →
    ∀ sum reverse,
      heap.applied outlook .plus (heap.object outlook first) (heap.object outlook second) =
        .ok sum →
      heap.applied outlook .plus (heap.object outlook second) (heap.object outlook first) =
        .ok reverse →
      sum.equals reverse = true
  /-- Keys do not depend on the order either, if all indices are numbers. -/
  key_plus_comm : (heap.seen outlook first).relation = (heap.seen outlook second).relation →
    (∀ index ∈ (heap.seen outlook first).terms.keys, index.Numeric) →
    (∀ index ∈ (heap.seen outlook second).terms.keys, index.Numeric) →
    ∀ sum reverse,
      heap.applied outlook .plus (heap.object outlook first) (heap.object outlook second) =
        .ok sum →
      heap.applied outlook .plus (heap.object outlook second) (heap.object outlook first) =
        .ok reverse →
      sum.key = reverse.key
  /-- A difference is the sum with the opposite. -/
  minus_eq_plus_negate : Expression.Match
    (heap.applied outlook .minus (heap.object outlook first) (heap.object outlook second))
    (heap.outcome outlook
      (makeThen outlook (.operate .negate (heap.object outlook second) .missing) fun opposite =>
        .operate .plus (heap.object outlook first) opposite))
  negate_negate : (heap.seen outlook first).Regains (heap.outcome outlook
    (makeThen outlook (.operate .negate (heap.object outlook first) .missing) fun opposite =>
      .operate .negate opposite .missing))
  plus_zero : (heap.seen outlook first).Regains
    (heap.applied outlook .plus (heap.object outlook first) (.number 0))
  multiply_one : (heap.seen outlook first).Regains
    (heap.applied outlook .multiply (heap.object outlook first) (.number 1))
  minus_self : ∃ difference,
    heap.applied outlook .minus (heap.object outlook first) (heap.object outlook first) =
      .ok difference ∧ difference.isConstant = true ∧ difference.constant = 0

/-- The laws of the operators hold whatever was made and changed before. -/
theorem laws_of_reachable (steps : List (Step Float)) (outlook : Outlook Float)
    {first second : Nat} (present : first < (reached steps).size)
    (otherPresent : second < (reached steps).size)
    (reachable : ((reached steps).seen outlook first).Reachable admitted)
    (otherReachable : ((reached steps).seen outlook second).Reachable admitted) :
    Laws outlook (reached steps) first second := by
  have separate := separate_reached steps
  have sound := reachable.sound
  have otherSound := otherReachable.sound
  have known : (reached steps).Known outlook ((reached steps).object outlook first) :=
    known_object present
  have otherKnown : (reached steps).Known outlook ((reached steps).object outlook second) :=
    known_object otherPresent
  have sum := applied_eq separate .plus known otherKnown
  have reverse := applied_eq separate .plus otherKnown known
  constructor
  case exists_plus_comm =>
    intro _
    rw [sum, reverse]
    exact Expression.exists_plus_comm sound otherSound
  case equals_plus_comm =>
    intro relations one other success otherSuccess
    rw [sum] at success
    rw [reverse] at otherSuccess
    exact Expression.equals_plus_comm sound otherSound relations success otherSuccess
  case key_plus_comm =>
    intro relations numeric otherNumeric one other success otherSuccess
    rw [sum] at success
    rw [reverse] at otherSuccess
    exact Expression.key_plus_comm sound otherSound relations numeric otherNumeric success
      otherSuccess
  case minus_eq_plus_negate =>
    have opposite : (reached steps).outcome outlook
        (makeThen outlook (.operate .negate ((reached steps).object outlook second) .missing)
          fun opposite => .operate .plus ((reached steps).object outlook first) opposite) =
        (((reached steps).seen outlook second).negate >>= fun opposite =>
          ((reached steps).seen outlook first).after (Expression.addExpression opposite 1)) := by
      apply outcome_operateThen separate otherKnown known_missing
      intro number opposite middle keeps fresh
      exact (applied_eq keeps.separate .plus (known.keeps keeps) fresh).trans
        Expression.plus_expression
    rw [opposite, applied_eq separate .minus known otherKnown]
    exact Expression.match_minus_negate sound otherSound second
  case negate_negate =>
    have twice : (reached steps).outcome outlook
        (makeThen outlook (.operate .negate ((reached steps).object outlook first) .missing)
          fun opposite => .operate .negate opposite .missing) =
        (((reached steps).seen outlook first).negate >>= Expression.negate) := by
      apply outcome_operateThen separate known known_missing
      intro number opposite middle keeps fresh
      exact applied_eq keeps.separate .negate fresh known_missing
    rw [twice]
    exact Expression.regains_negate_negate sound
  case plus_zero =>
    rw [applied_eq separate .plus known (known_number 0)]
    exact Expression.regains_plus_zero sound
  case multiply_one =>
    rw [applied_eq separate .multiply known (known_number 1)]
    exact Expression.regains_multiply_one sound
  case minus_self =>
    rw [applied_eq separate .minus known known]
    exact Expression.minus_self sound first

/-- First x + 2y + 1, then 3z - 2y + 1. -/
private def overlapping : List (Step Float) :=
  [.make .unchanged (sumOf [.place 0, .place 1] [1, 2]),
    .make .unchanged (sumOf [.place 2, .place 1] [3, -2])]

/-- Two sums in which one variable cancels out and the others are in another order. -/
theorem laws_of_overlapping : Laws .unchanged (reached overlapping) 0 1 ∧
    ((reached overlapping).applied .unchanged .plus ((reached overlapping).object .unchanged 0)
        ((reached overlapping).object .unchanged 1)).toOption.map (fun sum => sum.terms.keys) =
      some [.place 0, .place 2] ∧
    ((reached overlapping).applied .unchanged .plus ((reached overlapping).object .unchanged 1)
        ((reached overlapping).object .unchanged 0)).toOption.map (fun sum => sum.terms.keys) =
      some [.place 2, .place 0] := by
  have first : ((reached overlapping).seen .unchanged 0).Reachable (fun _ => True) :=
    reachable_sumOf [.place 0, .place 1] [1, 2] rfl
  have second : ((reached overlapping).seen .unchanged 1).Reachable (fun _ => True) :=
    reachable_sumOf [.place 2, .place 1] [3, -2] rfl
  exact ⟨laws_of_reachable overlapping .unchanged (by decide) (by decide) first second,
    by decide +kernel, by decide +kernel⟩

end Laws

end LinearProgram.Heap
