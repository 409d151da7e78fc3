import LinearProgram.Proofs.Expression.Operations
import LinearProgram.Proofs.Heap.Outcomes

/-!
# Operators of variables, and scaling in place

The operators of a variable begin with a new object, those of an expression with a copy or with a
zero of the same relation, and scaling changes an object in place.  They make the same checks in
the same order, so all of them give the same terms or fail for the same reason.
-/

namespace LinearProgram.Heap

/-- Build an expression from one variable and the coefficient one. -/
def Making.single (handle : Variable) (tag otherTag : Nat) : Making Float :=
  .build (.list [.handle handle] tag) (.list [.number 1] otherTag) (.number 0) (.text "")

section Agreement

variable {outlook : Outlook Float} {heap : Heap Float} {operand : Value Float}

private theorem fixed_single (handle : Variable) : handle.single.Over outlook.Fixes := by
  intro entry membership
  cases List.mem_singleton.mp membership
  exact outlook.see_variable handle

/-- What an operator makes of an expression that was built of one variable. -/
theorem outcome_single (separate : heap.Separate) (operator : Operator) (handle : Variable)
    (tag otherTag : Nat) (known : heap.Known outlook operand) :
    heap.outcome outlook (makeThen outlook (.single handle tag otherTag) fun single =>
        .operate operator single operand) =
      operator.onExpression handle.single operand := by
  have built : (Making.single handle tag otherTag).stated outlook heap = .ok handle.single :=
    Variable.build_single outlook.reckon handle tag otherTag
  have program : heap.outcome outlook
      (makeThen outlook (.single handle tag otherTag) fun single =>
        .operate operator single operand) =
      ((Making.single handle tag otherTag).stated outlook heap >>= fun single =>
        operator.onExpression single operand) := by
    have stated : (Making.single handle tag otherTag).Known outlook heap := trivial
    apply outcome_makeThen separate stated
    · intro expression success
      cases built.symm.trans success
      exact fixed_single handle
    · intro number single middle _ keeps fresh
      exact applied_eq keeps.separate operator fresh (known.keeps keeps)
  rw [program, built]
  rfl

/-- Whatever was made and changed before: an operator of a variable does what it does to an
expression that was built of the variable, for every operand.  A multiple of an object matches a
copy that is scaled in place, for every factor. -/
theorem operators_agree (steps : List (Step Float)) (outlook : Outlook Float)
    {operand : Value Float} (known : (reached steps).Known outlook operand) :
    (∀ (operator : Operator) (handle : Variable) (tag otherTag : Nat),
      (reached steps).applied outlook operator (.handle handle) operand =
        (reached steps).outcome outlook (makeThen outlook (.single handle tag otherTag)
          fun single => .operate operator single operand)) ∧
    ∀ number < (reached steps).size, Expression.Match
      ((reached steps).applied outlook .multiply ((reached steps).object outlook number) operand)
      ((reached steps).outcome outlook (copyScaled outlook number operand)) := by
  have separate := separate_reached steps
  constructor
  · intro operator handle tag otherTag
    have receiverKnown : (reached steps).Known outlook (.handle handle) := trivial
    rw [applied_eq separate operator receiverKnown known,
      outcome_single separate operator handle tag otherTag known]
    exact handle.onVariable_eq operator operand
  · intro number present
    rw [applied_eq separate .multiply (known_object present) known, outcome_copyScaled separate]
    change Expression.Match (operand.scalar "multiply" >>= _) _
    cases operand.scalar "multiply" with
    | error reason => exact .error
    | ok factor => exact Expression.match_times_scale _ factor

end Agreement

section Agreeing

private def handleOf (position : Nat) : Variable :=
  { model := ⟨0, "m"⟩, index := .place position }

/-- The object x + 2y + 1. -/
private def shifted : List (Step Float) :=
  [.make .unchanged (.build (.list [.handle (handleOf 0), .handle (handleOf 1)] 0)
    (.list [.number 1, .number 2] 0) (.number 1) (.text ""))]

/-- In x less the object, x cancels out, however the difference is made.  Scaled in place, a copy
of the object matches a multiple of it. -/
theorem operators_agree_shifted :
    (reached shifted).applied .unchanged .minus (.handle (handleOf 0))
        ((reached shifted).object .unchanged 0) =
      (reached shifted).outcome .unchanged (makeThen .unchanged (.single (handleOf 0) 1 2)
        fun single => .operate .minus single ((reached shifted).object .unchanged 0)) ∧
    ((reached shifted).applied .unchanged .minus (.handle (handleOf 0))
        ((reached shifted).object .unchanged 0)).toOption.map (fun made => made.terms.keys) =
      some [.place 1] ∧
    Expression.Match
      ((reached shifted).applied .unchanged .multiply ((reached shifted).object .unchanged 0)
        (.number (-3)))
      ((reached shifted).outcome .unchanged (copyScaled .unchanged 0 (.number (-3)))) := by
  have present : 0 < (reached shifted).size := by decide
  have subtracting := operators_agree shifted .unchanged
    (@known_object _ _ .unchanged (reached shifted) 0 present)
  have scaling := operators_agree shifted .unchanged
    (@known_number _ _ .unchanged (reached shifted) (-3))
  refine ⟨subtracting.1 .minus (handleOf 0) 1 2, ?_, scaling.2 0 present⟩
  decide +kernel

end Agreeing

end LinearProgram.Heap
