import LinearProgram.Proofs.Heap.Edits

/-!
# New objects

Operators, copies and sums make an object with a table of its own and leave all
objects as they were, whether they succeed or fail.  If their operands are what
the heap holds, the new object is what the operators on expressions give.
-/

namespace LinearProgram.Heap

variable {α : Type} [Scalar α] {outlook : Outlook α} {heap middle after : Heap α}

/-- A new object was made, and all objects from before stay as they were. -/
structure Made (outlook : Outlook α) (before : Heap α) (number : Nat)
    (expression : Expression α) (after : Heap α) : Prop where
  keeps : Keeps (fun _ => True) before after
  fresh : before.size ≤ number
  present : number < after.size
  holds : after.seen outlook number = expression.map outlook.see

/-- An update makes an object of what is expected, or fails for the expected
reason, and leaves all objects from before. -/
inductive Yields (outlook : Outlook α) (heap : Heap α) (update : HeapUpdate α Nat) :
    Except (Error α) (Expression α) → Prop
  | ok {expression : Expression α} {number : Nat} {after : Heap α}
      (success : update heap = .ok number after)
      (made : Made outlook heap number expression after) :
      Yields outlook heap update (.ok expression)
  | error {reason : Error α} {after : Heap α}
      (failure : update heap = .error reason after)
      (keeps : Keeps (fun _ => True) heap after) :
      Yields outlook heap update (.error reason)

/-- An update makes an object of something, and of what is stated provided that
some condition holds. -/
def Realizes (outlook : Outlook α) (heap : Heap α) (condition : Prop)
    (update : HeapUpdate α Nat) (stated : Except (Error α) (Expression α)) : Prop :=
  ∃ outcome, Yields outlook heap update outcome ∧ (condition → outcome = stated)

section Sequences

variable {condition : Prop}

theorem yields_create (separate : heap.Separate) (expression : Expression α) :
    Yields outlook heap (create expression) (.ok expression) := by
  have free : (heap.addTable expression.terms).Free heap.tables.length :=
    separate.free_addTable
  have opened : Keeps (fun _ => True) heap (heap.addTable expression.terms) :=
    separate.keeps_addTable
  refine .ok rfl ⟨?keeps, Nat.le_refl _, ?present, ?holds⟩
  case keeps =>
    exact opened.trans (Free.keeps_addBody free opened.separate)
      (fun _ _ _ => trivial)
  case present => simp [size, addBody, addTable]
  case holds =>
    apply seen_of_read?
    apply read?_addBody_self.trans
    rw [termsAt_addTable_self]

theorem Yields.realizes {update : HeapUpdate α Nat}
    {outcome : Except (Error α) (Expression α)}
    (yields : Yields outlook heap update outcome) :
    Realizes outlook heap condition update outcome :=
  ⟨outcome, yields, fun _ => rfl⟩

theorem Realizes.mono {weaker : Prop} {update : HeapUpdate α Nat}
    {stated : Except (Error α) (Expression α)}
    (realizes : Realizes outlook heap weaker update stated)
    (implied : condition → weaker) :
    Realizes outlook heap condition update stated := by
  obtain ⟨outcome, yields, same⟩ := realizes
  exact ⟨outcome, yields, fun holds => same (implied holds)⟩

theorem Realizes.after_check {β : Type} {check : Except (Error α) β}
    {next : β → HeapUpdate α Nat} {stated : β → Except (Error α) (Expression α)}
    (separate : heap.Separate)
    (later : ∀ value, check = .ok value →
      Realizes outlook heap condition (next value) (stated value)) :
    Realizes outlook heap condition (liftM check >>= next) (check >>= stated) := by
  cases check with
  | error reason => exact Yields.realizes (.error rfl (.refl separate))
  | ok value => exact later value rfl

theorem Realizes.after_get {next : Heap α → HeapUpdate α Nat}
    {stated : Except (Error α) (Expression α)}
    (later : Realizes outlook heap condition (next heap) stated) :
    Realizes outlook heap condition (get >>= next) stated := by
  obtain ⟨outcome, yields, same⟩ := later
  refine ⟨outcome, ?_, same⟩
  cases yields with
  | ok success made => exact .ok success made
  | error failure keeps => exact .error failure keeps

theorem realizes_create (separate : heap.Separate)
    (check : Except (Error α) (Expression α)) :
    Realizes outlook heap condition (do create (← check)) check := by
  cases check with
  | error reason => exact Yields.realizes (.error rfl (.refl separate))
  | ok expression => exact (yields_create separate expression).realizes

/-- What was made can be changed in place before it is given out. -/
theorem Realizes.then_edit {first : HeapUpdate α Nat}
    {next : Nat → HeapUpdate α Unit} {begun : Except (Error α) (Expression α)}
    {stated : Expression α → Except (Error α) (Expression α)}
    (making : Realizes outlook heap condition first begun)
    (later : ∀ {number : Nat} {middle : Heap α} {expression : Expression α},
      Made outlook heap number expression middle →
        ∃ outcome, Follows outlook middle number (next number) outcome ∧
          (condition → begun = .ok expression → outcome = stated expression)) :
    Realizes outlook heap condition
      (do
        let number ← first
        next number
        return number)
      (begun >>= stated) := by
  obtain ⟨outcome, yields, same⟩ := making
  cases yields with
  | error failure keeps =>
      refine ⟨_, .error (Update.bind_of_error failure) keeps, ?_⟩
      intro holds
      rw [← same holds]
      rfl
  | @ok expression number middle success made =>
      obtain ⟨final, follows, agrees⟩ := later made
      refine ⟨final, ?_, ?_⟩
      · have begins :
            (first >>= fun number => next number >>= fun _ => pure number) heap =
              (next number >>= fun _ => pure number) middle :=
          Update.bind_of_ok success
        have different : ∀ other < heap.size, True → other ≠ number :=
          fun other present _ =>
            Nat.ne_of_lt (Nat.lt_of_lt_of_le present made.fresh)
        cases follows with
        | ok changed keeps holds =>
            refine .ok (begins.trans (Update.bind_of_ok changed))
              ⟨made.keeps.trans keeps different, made.fresh, ?_, holds made.present⟩
            exact Nat.lt_of_lt_of_le made.present keeps.growth
        | error failure keeps =>
            exact .error (begins.trans (Update.bind_of_error failure))
              (made.keeps.trans keeps (fun _ _ _ => trivial))
      · intro holds
        rw [← same holds]
        exact agrees holds (same holds).symm

end Sequences

section Operands

variable {condition : Prop}

/-- A value stands for nothing but an object of the heap as it is. -/
def Known (outlook : Outlook α) (heap : Heap α) : Value α → Prop
  | .expression number contents =>
    number < heap.size ∧ heap.seen outlook number = contents
  | _ => True

theorem Known.over {value : Value α} (known : heap.Known outlook value) :
    value.Over outlook.Fixes := by
  cases value with
  | handle handle => exact outlook.see_variable handle
  | expression number contents =>
      obtain ⟨_, rfl⟩ := known
      exact Expression.over_map_see
  | _ => trivial

/-- What is known stays known as long as it is kept. -/
theorem Known.current_eq {value : Value α} (known : heap.Known outlook value)
    (keeps : Keeps (fun _ => True) heap middle) :
    middle.current outlook value = value := by
  cases value with
  | expression number contents =>
      obtain ⟨present, rfl⟩ := known
      rw [current, keeps.seen_eq present trivial]
  | _ => rfl

theorem Made.seen_eq {number : Nat} {expression : Expression α}
    (made : Made outlook heap number expression after)
    (fixed : expression.Over outlook.Fixes) :
    after.seen outlook number = expression :=
  made.holds.trans fixed.map_see

end Operands

section Operators

variable {condition : Prop} {operand : Value α} {factor : α}

theorem realizes_combine {receiver : Receiver}
    {begun : Except (Error α) (Expression α)}
    (making : Realizes outlook heap condition (startFrom outlook receiver) begun)
    (fixed : condition → ∀ expression, begun = .ok expression →
      expression.Over outlook.Fixes)
    (known : condition → heap.Known outlook operand) :
    Realizes outlook heap condition (combine outlook receiver operand factor)
      (begun >>= fun expression =>
        expression.after (Expression.addMultiple operand factor)) := by
  apply making.then_edit
  intro number middle expression made
  refine ⟨_, follows_addMultiple made.keeps.separate operand factor, ?_⟩
  intro holds same
  rw [made.seen_eq (fixed holds expression same),
    (known holds).current_eq made.keeps]

theorem realizes_relate {receiver : Receiver}
    {begun : Except (Error α) (Expression α)} (relation : Relation)
    (making : Realizes outlook heap condition (startFrom outlook receiver) begun)
    (fixed : condition → ∀ expression, begun = .ok expression →
      expression.Over outlook.Fixes)
    (known : condition → heap.Known outlook operand) :
    Realizes outlook heap condition
      (do
        let result ← combine outlook receiver operand factor
        setRelation result relation
        return result)
      (do
        return { ← begun >>= fun expression =>
          expression.after (Expression.addMultiple operand factor) with relation }) := by
  apply (realizes_combine making fixed known).then_edit
  intro number middle expression made
  refine ⟨_, follows_setRelation made.keeps.separate relation, ?_⟩
  intro holds same
  obtain ⟨start, started, combined⟩ := Check.ok_of_bind same
  have settled : expression.Over outlook.Fixes :=
    Expression.over_addMultiple (fixed holds start started) (known holds).over
      (Expression.ok_of_after combined)
  rw [made.seen_eq settled]
  rfl

theorem over_times {handle : Variable} {expression : Expression α}
    (success : handle.times factor = .ok expression) :
    expression.Over outlook.Fixes := by
  refine Expression.over_assemble ?_ success
  intro multiple membership
  cases List.mem_singleton.mp membership
  exact outlook.see_variable handle

theorem realizes_multiple {number : Nat} {contents : Expression α}
    (separate : heap.Separate)
    (known : condition → number < heap.size ∧ heap.seen outlook number = contents) :
    Realizes outlook heap condition (multiple outlook (.object number) factor)
      (contents.times factor) := by
  apply Realizes.after_get
  have making : Realizes outlook heap condition
      (create (Expression.zero (heap.seen outlook number).relation))
      (.ok (Expression.zero contents.relation)) := by
    refine ⟨_, yields_create separate _, ?_⟩
    intro holds
    rw [(known holds).2]
  have stated : contents.times factor =
      (Except.ok (Expression.zero contents.relation) >>= fun start =>
        start.after (Expression.addExpression contents factor)) := rfl
  rw [stated]
  apply making.then_edit
  intro result middle expression made
  refine ⟨_, follows_addExpression made.keeps.separate number factor, ?_⟩
  intro holds same
  cases same
  obtain ⟨present, rfl⟩ := known holds
  have start : (Expression.zero (heap.seen outlook number).relation :
      Expression α).Over outlook.Fixes := Terms.over_empty
  rw [made.seen_eq start, made.keeps.seen_eq present trivial]

theorem realizes_onVariable (separate : heap.Separate) (operator : Operator)
    (handle : Variable) :
    Realizes outlook heap (heap.Known outlook operand)
      (operateOn outlook operator (.variable handle) operand)
      (operator.onVariable handle operand) := by
  have making : Realizes outlook heap (heap.Known outlook operand)
      (startFrom outlook (.variable handle)) handle.toExpression :=
    realizes_create separate _
  have fixed : heap.Known outlook operand → ∀ expression,
      handle.toExpression = .ok expression → expression.Over outlook.Fixes :=
    fun _ _ success => over_times success
  cases operator with
  | plus => exact realizes_combine making fixed id
  | minus => exact realizes_combine making fixed id
  | multiply =>
      apply Realizes.after_check separate
      intro factor _
      exact realizes_create separate _
  | divide =>
      apply Realizes.after_check separate
      intro divisor _
      exact realizes_create separate _
  | negate => exact realizes_create separate _
  | relate relation => exact realizes_relate relation making fixed id

theorem realizes_onExpression (separate : heap.Separate) (operator : Operator)
    (number : Nat) (contents : Expression α) :
    Realizes outlook heap
      ((number < heap.size ∧ heap.seen outlook number = contents) ∧
        heap.Known outlook operand)
      (operateOn outlook operator (.object number) operand)
      (operator.onExpression contents operand) := by
  have making : Realizes outlook heap
      ((number < heap.size ∧ heap.seen outlook number = contents) ∧
        heap.Known outlook operand)
      (startFrom outlook (.object number)) (.ok contents) := by
    apply Realizes.after_get
    refine ⟨_, yields_create separate _, ?_⟩
    intro known
    rw [known.1.2]
  have fixed : (number < heap.size ∧ heap.seen outlook number = contents) ∧
      heap.Known outlook operand → ∀ expression,
        Except.ok contents = (.ok expression : Except (Error α) _) →
          expression.Over outlook.Fixes := by
    rintro ⟨⟨_, rfl⟩, _⟩ expression same
    cases same
    exact Expression.over_map_see
  cases operator with
  | plus => exact realizes_combine making fixed And.right
  | minus => exact realizes_combine making fixed And.right
  | multiply =>
      apply Realizes.after_check separate
      intro factor _
      exact realizes_multiple separate And.left
  | divide =>
      apply Realizes.after_check separate
      intro divisor _
      exact realizes_multiple separate And.left
  | negate => exact realizes_multiple separate And.left
  | relate relation => exact realizes_relate relation making fixed And.right

theorem realizes_operate (separate : heap.Separate) (operator : Operator)
    (receiver operand : Value α) :
    Realizes outlook heap
      (heap.Known outlook receiver ∧ heap.Known outlook operand)
      (operate outlook operator receiver operand)
      (operator.apply receiver operand) := by
  cases receiver with
  | handle handle =>
      have realizes : Realizes outlook heap (heap.Known outlook operand)
          (operateOn outlook operator (.variable handle) operand)
          (operator.onVariable handle operand) :=
        realizes_onVariable separate operator handle
      exact realizes.mono And.right
  | expression number contents =>
      exact realizes_onExpression separate operator number contents
  | _ => exact Yields.realizes (.error rfl (.refl separate))

end Operators

section Sums

/-- The terms of a sum are added one after the other, each to what the terms
before it gave. -/
theorem realizes_sum (separate : heap.Separate) (terms : List (Value α)) :
    Realizes outlook heap (∀ term ∈ terms, heap.Known outlook term)
      (sum outlook terms) (Expression.sum terms) := by
  induction terms using List.reverseRecOn with
  | nil => exact (yields_create separate _).realizes
  | append_singleton earlier term induction =>
      have program : sum outlook (earlier ++ [term]) = do
          let number ← sum outlook earlier
          addMultiple outlook number term 1
          return number := by
        simp [sum]
      have stated : Expression.sum (earlier ++ [term]) =
          (Expression.sum earlier >>= fun total => total.plus term) := by
        simp [Expression.sum]
      rw [program, stated]
      have begun : Realizes outlook heap
          (∀ other ∈ earlier ++ [term], heap.Known outlook other)
          (sum outlook earlier) (Expression.sum earlier) := by
        apply induction.mono
        intro known other membership
        exact known other (List.mem_append_left _ membership)
      apply begun.then_edit
      intro number middle expression made
      refine ⟨_, follows_addMultiple made.keeps.separate term 1, ?_⟩
      intro known same
      have settled : expression.Over outlook.Fixes := by
        refine Expression.over_sum ?_ same
        intro other membership
        exact (known other (List.mem_append_left _ membership)).over
      have last : heap.Known outlook term :=
        known term (List.mem_append_right _ (List.mem_singleton_self _))
      rw [made.seen_eq settled, last.current_eq made.keeps]
      rfl

end Sums

/-- Operands are objects of the heap as they are. -/
def Making.Known (outlook : Outlook α) (heap : Heap α) : Making α → Prop
  | .operate _ receiver operand =>
    heap.Known outlook receiver ∧ heap.Known outlook operand
  | .sum terms => ∀ term ∈ terms, heap.Known outlook term
  | .build _ _ _ _ | .copy _ | .receive _ => True

/-- The expression that is made, by the operators on expressions. -/
def Making.stated (outlook : Outlook α) (heap : Heap α) :
    Making α → Except (Error α) (Expression α)
  | .build handles coefficients constant relation =>
    Expression.build outlook.reckon handles coefficients constant relation
  | .operate operator receiver operand => operator.apply receiver operand
  | .copy number => .ok (heap.seen outlook number)
  | .sum terms => Expression.sum terms
  | .receive expression => .ok expression

/-- What is made is what the operators on expressions give. -/
theorem realizes_make (separate : heap.Separate) (making : Making α) :
    Realizes outlook heap (making.Known outlook heap) (make outlook making)
      (making.stated outlook heap) := by
  cases making with
  | build => exact realizes_create separate _
  | operate operator receiver operand =>
      exact realizes_operate separate operator receiver operand
  | copy number =>
      apply Realizes.after_get
      exact (yields_create separate _).realizes
  | sum terms => exact realizes_sum separate terms
  | receive expression => exact (yields_create separate expression).realizes

end LinearProgram.Heap
