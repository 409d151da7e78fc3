import LinearProgram.Proofs.Expression.Participants
import LinearProgram.Proofs.Heap.Frames

/-!
# Changes in place

A change of an object does what the same change does to an expression that
nothing else refers to.  If that one is refused, all objects are left as they
were, also where terms had been collected already.
-/

namespace LinearProgram

variable {α : Type} [Scalar α] {outlook : Outlook α}

section Seeing

/-- A participant that is seen as it is. -/
def Outlook.Fixes (outlook : Outlook α) (participant : Participant) : Prop :=
  outlook.see participant = participant

variable {expression : Expression α}

theorem Expression.over_map_see :
    (expression.map outlook.see).Over outlook.Fixes := by
  intro entry membership
  obtain ⟨old, _, rfl⟩ := List.mem_map.mp membership
  exact outlook.see_see old.2.participant

theorem Expression.Over.map_see (fixed : expression.Over outlook.Fixes) :
    expression.map outlook.see = expression := by
  obtain ⟨terms, constant, relation⟩ := expression
  simp only [Expression.map, Expression.mk.injEq, and_true]
  apply OrderedMap.ext
  simp only [OrderedMap.map]
  rw [List.map_congr_left (g := id), List.map_id]
  intro entry membership
  have same : outlook.see entry.2.participant = entry.2.participant :=
    fixed entry membership
  rw [same]
  rfl

end Seeing

namespace Heap

variable {heap : Heap α} {number : Nat}

theorem seen_of_read? {expression : Expression α}
    (found : heap.read? number = some expression) :
    heap.seen outlook number = expression.map outlook.see := by
  rw [seen, found]
  rfl

/-- What is put into a value that stands for an object. -/
def current (outlook : Outlook α) (heap : Heap α) : Value α → Value α
  | .expression number _ => .expression number (heap.seen outlook number)
  | other => other

/-- An update makes of one object what is expected, and leaves the others; or it
fails for the expected reason, and leaves all. -/
inductive Follows (outlook : Outlook α) (heap : Heap α) (number : Nat)
    (update : HeapUpdate α Unit) : Except (Error α) (Expression α) → Prop
  | ok {changed : Expression α} {after : Heap α}
      (success : update heap = .ok () after)
      (keeps : Keeps (· ≠ number) heap after)
      (holds : number < heap.size →
        after.seen outlook number = changed.map outlook.see) :
      Follows outlook heap number update (.ok changed)
  | error {reason : Error α} {after : Heap α}
      (failure : update heap = .error reason after)
      (keeps : Keeps (fun _ => True) heap after) :
      Follows outlook heap number update (.error reason)

section Sequences

variable {β : Type} {check : Except (Error α) β} {next : β → HeapUpdate α Unit}
  {update : β → ExpressionUpdate α Unit} {expression : Expression α}

/-- A check may refuse both changes before anything is written. -/
theorem Follows.after_check (separate : heap.Separate)
    (later : ∀ value, check = .ok value →
      Follows outlook heap number (next value) (expression.after (update value))) :
    Follows outlook heap number (liftM check >>= next)
      (expression.after (liftM check >>= update)) := by
  cases check with
  | error reason => exact .error rfl (.refl separate)
  | ok value => exact later value rfl

theorem Follows.after_get {next : Heap α → HeapUpdate α Unit}
    {outcome : Except (Error α) (Expression α)}
    (later : Follows outlook heap number (next heap) outcome) :
    Follows outlook heap number (get >>= next) outcome := by
  cases later with
  | ok success keeps holds => exact .ok success keeps holds
  | error failure keeps => exact .error failure keeps

/-- Both changes begin with a look at what is changed. -/
theorem Follows.after_gets {next : Heap α → HeapUpdate α Unit}
    {update : Expression α → ExpressionUpdate α Unit}
    (later : Follows outlook heap number (next heap)
      (expression.after (update expression))) :
    Follows outlook heap number (get >>= next)
      (expression.after (get >>= update)) :=
  .after_get later

end Sequences

section Collecting

variable {table : Nat}

private theorem insertTerm_of_ok {participant : Participant} {coefficient : α}
    {terms : Terms α}
    (joined : (heap.termsAt table).add participant coefficient = .ok terms) :
    insertTerm table participant coefficient heap =
      .ok () (heap.putTable table terms) :=
  Update.bind_of_check joined

private theorem insertTerm_of_error {participant : Participant} {coefficient : α}
    {reason : Error α}
    (refused : (heap.termsAt table).add participant coefficient = .error reason) :
    insertTerm table participant coefficient heap = .error reason heap :=
  Update.bind_of_refused refused

/-- Terms are collected in their table until one of them is refused. -/
private theorem insertTerms_cases (stored : table < heap.tables.length)
    (added : List (Term α)) (factor : α) :
    (∃ terms, (heap.termsAt table).addScaled added factor = .ok terms ∧
      insertTerms table added factor heap = .ok () (heap.putTable table terms)) ∨
    (∃ reason terms, (heap.termsAt table).addScaled added factor = .error reason ∧
      insertTerms table added factor heap =
        .error reason (heap.putTable table terms)) := by
  induction added generalizing heap with
  | nil =>
      refine .inl ⟨heap.termsAt table, rfl, ?_⟩
      rw [putTable_termsAt stored]
      rfl
  | cons term rest induction =>
      cases joined : (heap.termsAt table).add term.participant
        (term.coefficient * factor) with
      | error reason =>
          refine .inr ⟨reason, heap.termsAt table, ?_, ?_⟩
          · simp only [Terms.addScaled, List.foldlM_cons, joined]
            rfl
          · rw [putTable_termsAt stored]
            exact Update.bind_of_error (insertTerm_of_error joined)
      | ok terms =>
          have stillStored : table < (heap.putTable table terms).tables.length := by
            simpa [putTable] using stored
          have first : (heap.termsAt table).addScaled (term :: rest) factor =
              terms.addScaled rest factor := by
            simp only [Terms.addScaled, List.foldlM_cons, joined]
            rfl
          have step : insertTerms table (term :: rest) factor heap =
              insertTerms table rest factor (heap.putTable table terms) :=
            Update.bind_of_ok (insertTerm_of_ok joined)
          rcases induction stillStored with
            ⟨final, collected, done⟩ | ⟨reason, final, refused, stopped⟩
          · rw [termsAt_putTable_self stored] at collected
            rw [putTable_putTable] at done
            exact .inl ⟨final, first.trans collected, step.trans done⟩
          · rw [termsAt_putTable_self stored] at refused
            rw [putTable_putTable] at stopped
            exact .inr ⟨reason, final, first.trans refused, step.trans stopped⟩

/-- The terms of an object are collected in a table that nothing refers to, and
take the place of the old ones all at once. -/
theorem follows_rebuild (separate : heap.Separate) (number : Nat)
    (start : Terms α) (added : List (Term α)) (factor constant : α) :
    Follows outlook heap number (rebuild number start added factor constant)
      ((heap.seen outlook number).after (do
        let terms ← start.addScaled added factor
        set { heap.seen outlook number with terms, constant })) := by
  have free : (heap.addTable start).Free heap.tables.length :=
    separate.free_addTable
  have opened : Keeps (fun _ => True) heap (heap.addTable start) :=
    separate.keeps_addTable
  have begun : rebuild number start added factor constant heap =
      (insertTerms heap.tables.length added factor >>= fun _ =>
        modify (modifyBody number (fun body =>
          { body with table := heap.tables.length, constant })))
        (heap.addTable start) := rfl
  have filled (terms : Terms α) : Keeps (fun _ => True) heap
      ((heap.addTable start).putTable heap.tables.length terms) :=
    opened.trans (free.keeps_putTable opened.separate) (fun _ _ _ => trivial)
  have collecting := insertTerms_cases free.stored added factor
  rw [termsAt_addTable_self] at collecting
  rcases collecting with
    ⟨terms, collected, done⟩ | ⟨reason, terms, refused, stopped⟩
  · rw [collected]
    refine .ok (begun.trans (Update.bind_of_ok done)) ?_ ?_
    · have others : Keeps (· ≠ number) heap _ :=
        (filled terms).mono (fun _ _ => trivial)
      apply others.trans (others.separate.keeps_modifyBody _)
      · exact fun _ _ different => different
      · exact fun _ _ => .inr free.putTable
    · intro present
      obtain ⟨body, found⟩ := exists_body present
      have still :
          ((heap.addTable start).putTable heap.tables.length terms).bodies[number]? =
            some body := found
      rw [seen_of_read? (read?_modifyBody_self still),
        seen_of_read? (read?_of_body found),
        termsAt_putTable_self free.stored]
      rfl
  · rw [refused]
    exact .error (begun.trans (Update.bind_of_error stopped)) (filled terms)

end Collecting

section Members

theorem follows_addConstant (separate : heap.Separate) (amount : α) :
    Follows outlook heap number (addConstant outlook number amount)
      ((heap.seen outlook number).after (Expression.addConstant amount)) := by
  apply Follows.after_check separate
  intro accepted _
  apply Follows.after_gets
  apply Follows.after_check separate
  intro constant _
  refine .ok rfl (separate.keeps_modifyBody (fun _ _ => .inl rfl)) ?_
  intro present
  obtain ⟨body, found⟩ := exists_body present
  rw [seen_of_read? (read?_modifyBody_self found),
    seen_of_read? (read?_of_body found)]
  exact Expression.over_map_see.map_see.symm

theorem follows_setRelation (separate : heap.Separate) (relation : Relation) :
    Follows outlook heap number (setRelation number relation)
      (.ok { heap.seen outlook number with relation }) := by
  refine .ok rfl (separate.keeps_modifyBody (fun _ _ => .inl rfl)) ?_
  intro present
  obtain ⟨body, found⟩ := exists_body present
  rw [seen_of_read? (read?_modifyBody_self found),
    seen_of_read? (read?_of_body found)]
  exact Expression.over_map_see.map_see.symm

theorem follows_addTerm (separate : heap.Separate) (participant : Participant)
    (coefficient : α) :
    Follows outlook heap number (addTerm outlook number participant coefficient)
      ((heap.seen outlook number).after
        (Expression.addTerm participant coefficient)) := by
  apply Follows.after_gets
  apply Follows.after_check separate
  intro terms _
  refine .ok rfl separate.keeps_putTerms ?_
  intro present
  obtain ⟨body, found⟩ := exists_body present
  rw [seen_of_read? (separate.read?_putTerms found),
    seen_of_read? (read?_of_body found)]
  rfl

theorem follows_addExpression (separate : heap.Separate) (other : Nat)
    (factor : α) :
    Follows outlook heap number (addExpression outlook number other factor)
      ((heap.seen outlook number).after
        (Expression.addExpression (heap.seen outlook other) factor)) := by
  apply Follows.after_check separate
  intro accepted _
  apply Follows.after_gets
  apply Follows.after_get
  apply Follows.after_check separate
  intro owned _
  apply Follows.after_check separate
  intro product _
  apply Follows.after_check separate
  intro constant _
  exact follows_rebuild separate number _ _ _ constant

theorem follows_scale (separate : heap.Separate) (factor : α) :
    Follows outlook heap number (scale outlook number factor)
      ((heap.seen outlook number).after (Expression.scale factor)) := by
  apply Follows.after_check separate
  intro accepted _
  apply Follows.after_gets
  apply Follows.after_check separate
  intro constant _
  exact follows_rebuild separate number _ _ _ constant

theorem follows_addContents (separate : heap.Separate) (other : Value α)
    (factor : α) :
    Follows outlook heap number (addContents outlook number other factor)
      ((heap.seen outlook number).after (Expression.addContents outlook.reckon
        (heap.current outlook other) factor)) := by
  cases other with
  | expression source contents =>
      exact follows_addExpression separate source factor
  | _ =>
      cases outcome : (heap.seen outlook number).after
          (Expression.addContents outlook.reckon _ factor) with
      | error reason =>
          exact .error (Update.bind_of_refused outcome) (.refl separate)
      | ok changed =>
          obtain ⟨_, _, same⟩ :=
            Expression.expression_of_addContents (Expression.ok_of_after outcome)
          cases same

theorem follows_addMultiple (separate : heap.Separate) (term : Value α)
    (factor : α) :
    Follows outlook heap number (addMultiple outlook number term factor)
      ((heap.seen outlook number).after
        (Expression.addMultiple (heap.current outlook term) factor)) := by
  apply Follows.after_check separate
  intro accepted _
  cases term with
  | number amount => exact follows_addConstant separate _
  | handle handle => exact follows_addTerm separate _ _
  | expression other contents => exact follows_addExpression separate other _
  | _ => exact .error rfl (.refl separate)

/-- An edit that adds what an operand holds by now. -/
def refresh (outlook : Outlook α) (heap : Heap α) :
    Expression.Edit α → Expression.Edit α
  | .addExpression other factor => .addExpression (heap.current outlook other) factor
  | .addMultiple term factor => .addMultiple (heap.current outlook term) factor
  | other => other

/-- An edit in place does what it does to an expression alone. -/
theorem follows_edit (separate : heap.Separate) (edit : Expression.Edit α) :
    Follows outlook heap number (Heap.edit outlook number edit)
      ((heap.seen outlook number).after
        ((heap.refresh outlook edit).apply outlook.reckon)) := by
  cases edit with
  | addConstant amount =>
      apply Follows.after_check separate
      intro accepted _
      exact follows_addConstant separate accepted
  | addVariable handle coefficient =>
      apply Follows.after_check separate
      intro accepted _
      apply Follows.after_check separate
      intro participant _
      exact follows_addTerm separate participant accepted
  | addExpression other factor =>
      apply Follows.after_check separate
      intro accepted _
      exact follows_addContents separate other accepted
  | addMultiple term factor =>
      apply Follows.after_check separate
      intro accepted _
      exact follows_addMultiple separate term accepted
  | scale factor =>
      apply Follows.after_check separate
      intro accepted _
      exact follows_scale separate accepted
  | setRelation relation =>
      apply Follows.after_check separate
      intro accepted _
      exact follows_setRelation separate accepted

end Members

end Heap

end LinearProgram
