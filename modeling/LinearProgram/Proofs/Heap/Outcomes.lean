import LinearProgram.Proofs.Heap.Isolation

/-!
# What new objects hold

A caller sees of an update that makes an object either what the new object holds, or why there is
none.  For an operator that is what the operator on expressions gives, wherever its operands come
from.  So a law of operators on expressions is a law of objects, also where a new object is used
before the next one is made.
-/

namespace LinearProgram

/-- Nothing has become anything else, and every value counts for zero. -/
def Outlook.unchanged : Outlook Float where
  see participant := participant
  reckon _ := .ok (Scalar.ofNat 0)
  see_see _ := rfl
  see_variable _ := rfl

namespace Heap

variable {α : Type} [Scalar α] {outlook : Outlook α} {heap middle : Heap α}

/-- An object as an operand. -/
def object (outlook : Outlook α) (heap : Heap α) (number : Nat) : Value α :=
  .expression number (heap.seen outlook number)

/-- What is seen of a new object, or the reason why it was not made. -/
def outcome (outlook : Outlook α) (heap : Heap α) (update : HeapUpdate α Nat) :
    Except (Error α) (Expression α) :=
  match update heap with
  | .ok number final => .ok (final.seen outlook number)
  | .error reason _ => .error reason

/-- What an operator makes. -/
def applied (outlook : Outlook α) (heap : Heap α) (operator : Operator)
    (receiver operand : Value α) : Except (Error α) (Expression α) :=
  heap.outcome outlook (make outlook (.operate operator receiver operand))

/-- Make an object, and another one of it. -/
def makeThen (outlook : Outlook α) (first : Making α) (next : Value α → Making α) :
    HeapUpdate α Nat := do
  let number ← make outlook first
  make outlook (next ((← get).object outlook number))

/-- Make a copy of an object and scale it in place. -/
def copyScaled (outlook : Outlook α) (number : Nat) (factor : Value α) : HeapUpdate α Nat := do
  let result ← make outlook (.copy number)
  edit outlook result (.scale factor)
  return result

section Operands

theorem known_object {number : Nat} (present : number < heap.size) :
    heap.Known outlook (heap.object outlook number) :=
  ⟨present, rfl⟩

theorem known_missing : heap.Known outlook .missing := trivial

theorem known_number (value : α) : heap.Known outlook (.number value) := trivial

theorem Known.keeps {value : Value α} (known : heap.Known outlook value)
    (keeps : Keeps (fun _ => True) heap middle) : middle.Known outlook value := by
  cases value with
  | expression number contents =>
      obtain ⟨present, same⟩ := known
      exact ⟨Nat.lt_of_lt_of_le present keeps.growth, (keeps.seen_eq present trivial).trans same⟩
  | _ => trivial

end Operands

section Fixed

variable {expression result : Expression α} {operand : Value α}

theorem fixed_times {factor : α} (fixed : expression.Over outlook.Fixes)
    (success : expression.times factor = .ok result) : result.Over outlook.Fixes := by
  have start : (Expression.zero expression.relation : Expression α).Over outlook.Fixes :=
    Terms.over_empty
  exact Expression.over_addExpression start fixed (Expression.ok_of_after success)

/-- Operators on participants that are seen as they are bring in no others. -/
theorem fixed_onExpression {operator : Operator} (fixed : expression.Over outlook.Fixes)
    (operandFixed : operand.Over outlook.Fixes)
    (success : operator.onExpression expression operand = .ok result) :
    result.Over outlook.Fixes := by
  cases operator with
  | plus | minus =>
      exact Expression.over_addMultiple fixed operandFixed (Expression.ok_of_after success)
  | multiply | divide =>
      obtain ⟨_, _, multiplied⟩ := Check.ok_of_bind success
      exact fixed_times fixed multiplied
  | negate => exact fixed_times fixed success
  | relate relation =>
      obtain ⟨difference, subtracted, related⟩ := Check.ok_of_bind success
      have differenceFixed : difference.Over outlook.Fixes :=
        Expression.over_addMultiple fixed operandFixed (Expression.ok_of_after subtracted)
      cases related
      exact differenceFixed

private theorem fixed_onVariable {operator : Operator} {handle : Variable}
    (operandFixed : operand.Over outlook.Fixes)
    (success : operator.onVariable handle operand = .ok result) :
    result.Over outlook.Fixes := by
  have added : ∀ {factor : α} {sum : Expression α},
      (handle.toExpression >>= fun start =>
        start.after (Expression.addMultiple operand factor)) = .ok sum →
        sum.Over outlook.Fixes := by
    intro factor sum success
    obtain ⟨start, started, combined⟩ := Check.ok_of_bind success
    exact Expression.over_addMultiple (over_times started) operandFixed
      (Expression.ok_of_after combined)
  cases operator with
  | plus | minus => exact added success
  | multiply | divide =>
      obtain ⟨_, _, multiplied⟩ := Check.ok_of_bind success
      exact over_times multiplied
  | negate => exact over_times success
  | relate relation =>
      obtain ⟨difference, subtracted, related⟩ := Check.ok_of_bind success
      have differenceFixed : difference.Over outlook.Fixes := added subtracted
      cases related
      exact differenceFixed

theorem fixed_apply {operator : Operator} {receiver : Value α}
    (receiverFixed : receiver.Over outlook.Fixes) (operandFixed : operand.Over outlook.Fixes)
    (success : operator.apply receiver operand = .ok result) : result.Over outlook.Fixes := by
  cases receiver with
  | handle handle => exact fixed_onVariable operandFixed success
  | expression number expression => exact fixed_onExpression receiverFixed operandFixed success
  | _ => cases success

theorem fixed_scale {factor : α} (fixed : expression.Over outlook.Fixes)
    (success : expression.after (Expression.scale factor) = .ok result) :
    result.Over outlook.Fixes := by
  obtain ⟨_, _, scaled⟩ := Update.ok_of_check_bind (Expression.ok_of_after success)
  obtain ⟨_, _, collected⟩ := Update.ok_of_check_bind scaled
  obtain ⟨terms, addition, written⟩ := Update.ok_of_check_bind collected
  cases written
  exact Terms.over_empty.addScaled fixed addition

end Fixed

section Outcomes

variable {condition : Prop} {update : HeapUpdate α Nat}
  {stated : Except (Error α) (Expression α)}

/-- What is stated holds of the new object as it is seen. -/
theorem Realizes.outcome_eq (realizes : Realizes outlook heap condition update stated)
    (holds : condition)
    (fixed : ∀ expression, stated = .ok expression → expression.Over outlook.Fixes) :
    heap.outcome outlook update = stated := by
  obtain ⟨result, yields, same⟩ := realizes
  have equal := same holds
  cases yields with
  | ok success made =>
      rw [outcome, success, ← equal]
      exact congrArg Except.ok (made.seen_eq (fixed _ equal.symm))
  | error failure keeps => rw [outcome, failure, ← equal]

/-- An operator makes of objects what it makes of expressions. -/
theorem applied_eq (separate : heap.Separate) (operator : Operator)
    {receiver operand : Value α} (receiverKnown : heap.Known outlook receiver)
    (operandKnown : heap.Known outlook operand) :
    heap.applied outlook operator receiver operand = operator.apply receiver operand :=
  (realizes_operate separate operator receiver operand).outcome_eq
    ⟨receiverKnown, operandKnown⟩
    (fun _ success => fixed_apply receiverKnown.over operandKnown.over success)

/-- What is made of a new object is made of the expression that it holds. -/
theorem outcome_makeThen {first : Making α} {next : Value α → Making α}
    {stated : Expression α → Except (Error α) (Expression α)} (separate : heap.Separate)
    (known : first.Known outlook heap)
    (fixed : ∀ expression, first.stated outlook heap = .ok expression →
      expression.Over outlook.Fixes)
    (later : ∀ {number : Nat} {expression : Expression α} {middle : Heap α},
      first.stated outlook heap = .ok expression → Keeps (fun _ => True) heap middle →
        middle.Known outlook (.expression number expression) →
          middle.outcome outlook (make outlook (next (.expression number expression))) =
            stated expression) :
    heap.outcome outlook (makeThen outlook first next) =
      (first.stated outlook heap >>= stated) := by
  obtain ⟨result, yields, same⟩ := realizes_make separate first
  have equal := same known
  cases yields with
  | error failure keeps =>
      rw [← equal, outcome, makeThen, Update.bind_of_error failure]
      rfl
  | @ok expression number middle success made =>
      have seen := made.seen_eq (fixed expression equal.symm)
      have made := later equal.symm made.keeps ⟨made.present, seen⟩
      rw [← equal]
      change _ = stated expression
      rw [← made, ← seen, outcome, makeThen, Update.bind_of_ok success]
      rfl

/-- What is made of the result of an operator is made of what the operator on expressions gives. -/
theorem outcome_operateThen {operator : Operator} {receiver operand : Value α}
    {next : Value α → Making α} {stated : Expression α → Except (Error α) (Expression α)}
    (separate : heap.Separate) (receiverKnown : heap.Known outlook receiver)
    (operandKnown : heap.Known outlook operand)
    (later : ∀ {number : Nat} {expression : Expression α} {middle : Heap α},
      Keeps (fun _ => True) heap middle → middle.Known outlook (.expression number expression) →
        middle.outcome outlook (make outlook (next (.expression number expression))) =
          stated expression) :
    heap.outcome outlook (makeThen outlook (.operate operator receiver operand) next) =
      (operator.apply receiver operand >>= stated) :=
  outcome_makeThen separate ⟨receiverKnown, operandKnown⟩
    (fun _ success => fixed_apply receiverKnown.over operandKnown.over success)
    (fun _ keeps known => later keeps known)

private theorem apply_scale (reckon : Reckoning α) (expression : Expression α)
    (factor : Value α) :
    expression.after ((Expression.Edit.scale factor).apply reckon) =
      (factor.scalar "multiply" >>= fun factor =>
        expression.after (Expression.scale factor)) := by
  cases factor <;> rfl

/-- A copy is scaled like the expression that the object holds. -/
theorem outcome_copyScaled (separate : heap.Separate) (number : Nat) (factor : Value α) :
    heap.outcome outlook (copyScaled outlook number factor) =
      (factor.scalar "multiply" >>= fun factor =>
        (heap.seen outlook number).after (Expression.scale factor)) := by
  have fixed : (heap.seen outlook number).Over outlook.Fixes := Expression.over_map_see
  have realizes : Realizes outlook heap True (copyScaled outlook number factor)
      (.ok (heap.seen outlook number) >>= fun expression =>
        expression.after ((Expression.Edit.scale factor).apply outlook.reckon)) := by
    apply ((realizes_make separate (.copy number)).mono fun _ => trivial).then_edit
    intro result middle expression made
    refine ⟨_, follows_edit made.keeps.separate (.scale factor), ?_⟩
    intro _ same
    cases same
    rw [made.seen_eq fixed]
    rfl
  refine (realizes.outcome_eq trivial ?_).trans (apply_scale ..)
  intro expression success
  change (heap.seen outlook number).after _ = _ at success
  rw [apply_scale] at success
  obtain ⟨_, _, scaled⟩ := Check.ok_of_bind success
  exact fixed_scale fixed scaled

end Outcomes

end Heap

end LinearProgram
