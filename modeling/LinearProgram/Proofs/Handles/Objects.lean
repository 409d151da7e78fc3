import LinearProgram.Expression.Heap
import LinearProgram.Proofs.Handles.Expressions

/-!
# Expression objects with kept handles

Heaps that are the same with kept handles hold the same objects, with the same tables.
Edits and makings with arguments that differ in their handles lead from such heaps to
such heaps, whether they succeed or fail.
-/

namespace LinearProgram

variable {α : Type}

namespace Heap

section Forms

def kept (heap : Heap α) : Heap α := { heap with tables := heap.tables.map Terms.kept }

variable (heap : Heap α)

theorem termsAt_kept (table : Nat) : heap.kept.termsAt table = (heap.termsAt table).kept := by
  simp only [termsAt, kept, List.getElem?_map]
  cases heap.tables[table]? <;> rfl

theorem read?_kept (number : Nat) :
    heap.kept.read? number = (heap.read? number).map Expression.kept := by
  simp only [read?, termsAt_kept, Option.map_map]
  rfl

variable {heap} {other : Heap α} (same : heap.kept = other.kept)

include same

theorem bodies_of_kept : heap.bodies = other.bodies := (congrArg bodies same :)

theorem size_of_kept : heap.size = other.size := (congrArg size same :)

theorem tableCount_of_kept : heap.tables.length = other.tables.length := by
  have lengths : heap.kept.tables.length = other.kept.tables.length := by rw [same]
  simpa [kept] using lengths

theorem termsAt_of_kept (table : Nat) :
    (heap.termsAt table).kept = (other.termsAt table).kept := by
  rw [← termsAt_kept, same, termsAt_kept]

theorem kept_putTable (table : Nat) {terms counterpart : Terms α}
    (corresponding : terms.kept = counterpart.kept) :
    (heap.putTable table terms).kept = (other.putTable table counterpart).kept := by
  have tables : heap.tables.map Terms.kept = other.tables.map Terms.kept :=
    (congrArg Heap.tables same :)
  simp only [kept, putTable, List.map_set, bodies_of_kept same, tables, corresponding]

theorem kept_addTable {terms counterpart : Terms α}
    (corresponding : terms.kept = counterpart.kept) :
    (heap.addTable terms).kept = (other.addTable counterpart).kept := by
  have tables : heap.tables.map Terms.kept = other.tables.map Terms.kept :=
    (congrArg Heap.tables same :)
  simp only [kept, addTable, List.map_append, List.map_cons, List.map_nil, bodies_of_kept same,
    tables, corresponding]

theorem kept_addBody (body : Body α) : (heap.addBody body).kept = (other.addBody body).kept :=
  (congrArg (addBody body) same :)

theorem kept_modifyBody (number : Nat) (change : Body α → Body α) :
    (heap.modifyBody number change).kept = (other.modifyBody number change).kept :=
  (congrArg (modifyBody number change) same :)

theorem kept_putTerms (number : Nat) {terms counterpart : Terms α}
    (corresponding : terms.kept = counterpart.kept) :
    (heap.putTerms number terms).kept = (other.putTerms number counterpart).kept := by
  unfold putTerms
  rw [bodies_of_kept same]
  cases other.bodies[number]? with
  | none => exact same
  | some body => exact kept_putTable same body.table corresponding

end Forms

end Heap

variable [Scalar α]

open Update (Alike)

/-- Two outlooks that see the same, up to handles. -/
structure Outlook.Alike (first second : Outlook α) : Prop where
  see : ∀ participant, (first.see participant).kept = second.see participant.kept
  reckon : ∀ value, second.reckon value.keptMember = first.reckon value
  /-- Handles make no difference to what is seen. -/
  seeKept : ∀ participant, (second.see participant).kept = second.see participant.kept

/-- An edit with the kept handles in its arguments. -/
def Expression.Edit.kept : Expression.Edit α → Expression.Edit α
  | addConstant amount => addConstant amount.kept
  | addVariable handle coefficient => addVariable handle.kept coefficient.kept
  | addExpression other factor => addExpression other.kept factor.kept
  | addMultiple term factor => addMultiple term.kept factor.kept
  | scale factor => scale factor.kept
  | setRelation relation => setRelation relation.kept

/-- A making with the kept handles in its arguments. -/
def Heap.Making.kept : Heap.Making α → Heap.Making α
  | build handles coefficients constant relation =>
    build handles.kept coefficients.kept constant.kept relation.kept
  | operate operator receiver operand => operate operator receiver.kept operand.kept
  | copy number => copy number
  | sum terms => sum (terms.map Value.kept)
  | receive expression => receive expression.kept

namespace Heap

/-- Updates of a heap that are alike, up to the handles that it holds. -/
abbrev UpdatesAlike {β : Type} (first second : HeapUpdate α β) : Prop :=
  Alike Heap.kept id first second

section Updates

variable {outlook counterpart : Outlook α} (alike : outlook.Alike counterpart)

include alike in
theorem seen_kept {heap other : Heap α} (same : heap.kept = other.kept) (number : Nat) :
    (heap.seen outlook number).kept = (other.seen counterpart number).kept := by
  have read : (heap.read? number).map Expression.kept =
      (other.read? number).map Expression.kept := by
    rw [← read?_kept, same, read?_kept]
  have outer : ∀ found : Option (Expression α), (found.getD { constant := 0 }).kept =
      (found.map Expression.kept).getD (Expression.kept { constant := 0 }) := by
    intro found
    cases found <;> rfl
  have start : ((heap.read? number).getD { constant := 0 }).kept =
      ((other.read? number).getD { constant := 0 }).kept := by
    rw [outer, read, ← outer]
  rw [seen, seen, Expression.kept_map _ alike.see, start, ← Expression.kept_map _ alike.seeKept]

theorem newTable_alike {terms other : Terms α} (same : terms.kept = other.kept) :
    UpdatesAlike (newTable terms) (newTable other) := by
  refine .bind_get (fun heap counterpart heaps => ?_)
  have opened : UpdatesAlike (modify (addTable terms)) (modify (addTable other)) :=
    .modify (fun _ _ states => kept_addTable states same)
  dsimp only
  rw [tableCount_of_kept heaps]
  exact opened.bind (fun _ _ _ => .pure rfl)

theorem create_alike {expression other : Expression α} (same : expression.kept = other.kept) :
    UpdatesAlike (create expression) (create other) := by
  refine (newTable_alike (Expression.terms_of_kept same)).bind (fun table _ tables => ?_)
  cases tables
  refine .bind_get (fun heap counterpart heaps => ?_)
  have added (body : Body α) : UpdatesAlike (modify (addBody body)) (modify (addBody body)) :=
    .modify (fun _ _ states => kept_addBody states body)
  dsimp only
  rw [size_of_kept heaps, Expression.constant_of_kept same, Expression.relation_of_kept same]
  exact (added _).bind (fun _ _ _ => .pure rfl)

theorem insertTerm_alike (table : Nat) {participant other : Participant}
    (handles : participant.kept = other.kept) (coefficient : α) :
    UpdatesAlike (insertTerm table participant coefficient)
      (insertTerm table other coefficient) := by
  refine .bind_get (fun heap counterpart heaps => ?_)
  refine .bind_check (Terms.add_alike (termsAt_of_kept heaps table) handles coefficient) ?_
  exact fun terms others same => .modify (fun _ _ states => kept_putTable states table same)

theorem insertTerms_alike (table : Nat) {terms others : List (Term α)}
    (same : terms.map Term.kept = others.map Term.kept) (factor : α) :
    UpdatesAlike (insertTerms table terms factor) (insertTerms table others factor) := by
  apply Alike.forM _ same
  intro term other given
  have coefficients : term.kept.coefficient = other.kept.coefficient := by rw [given]
  have participants : term.kept.participant = other.kept.participant := by rw [given]
  simp only [Term.kept] at coefficients participants
  rw [coefficients]
  exact insertTerm_alike table participants _

theorem rebuild_alike (number : Nat) {start begun : Terms α} (starts : start.kept = begun.kept)
    {added others : List (Term α)} (same : added.map Term.kept = others.map Term.kept)
    (factor constant : α) :
    UpdatesAlike (rebuild number start added factor constant)
      (rebuild number begun others factor constant) := by
  refine (newTable_alike starts).bind (fun table _ tables => ?_)
  cases tables
  refine (insertTerms_alike table same factor).bind (fun _ _ _ => ?_)
  exact .modify (fun _ _ states => kept_modifyBody states number _)

theorem setRelation_alike (number : Nat) (relation : Relation) :
    UpdatesAlike (α := α) (setRelation number relation) (setRelation number relation) :=
  .modify (fun _ _ states => kept_modifyBody states number _)

variable (number : Nat)

include alike

theorem addConstant_alike (amount : α) :
    UpdatesAlike (addConstant outlook number amount) (addConstant counterpart number amount) := by
  refine .after_check (fun accepted => .bind_get (fun heap other heaps => ?_))
  dsimp only
  rw [Expression.constant_of_kept (seen_kept alike heaps number)]
  exact .after_check (fun constant =>
    .modify (fun _ _ states => kept_modifyBody states number _))

theorem addTerm_alike {participant other : Participant}
    (handles : participant.kept = other.kept) (coefficient : α) :
    UpdatesAlike (addTerm outlook number participant coefficient)
      (addTerm counterpart number other coefficient) := by
  refine .bind_get (fun heap other heaps => ?_)
  have terms := Expression.terms_of_kept (seen_kept alike heaps number)
  refine .bind_check (Terms.add_alike terms handles coefficient) ?_
  exact fun _ _ same => .modify (fun _ _ states => kept_putTerms states number same)

theorem addExpression_alike (other : Nat) (factor : α) :
    UpdatesAlike (addExpression outlook number other factor)
      (addExpression counterpart number other factor) := by
  refine .after_check (fun accepted => .bind_get (fun heap second heaps => ?_))
  have targets := seen_kept alike heaps number
  refine .bind_get (fun later further laters => ?_)
  have sources := seen_kept alike laters other
  dsimp only
  rw [Expression.requireOneModel_of_kept targets sources, Expression.constant_of_kept sources,
    Expression.constant_of_kept targets]
  refine .after_check (fun _ => .after_check (fun _ => .after_check (fun constant => ?_)))
  exact rebuild_alike number (Expression.terms_of_kept targets)
    (Expression.termList_of_kept sources) accepted constant

theorem addContents_alike (other : Value α) (factor : α) :
    UpdatesAlike (addContents outlook number other factor)
      (addContents counterpart number other.kept factor) := by
  have refused : UpdatesAlike
      (do
        let target := (← get).seen outlook number
        let _ ← target.after (Expression.addContents outlook.reckon other factor))
      (do
        let target := (← get).seen counterpart number
        let _ ← target.after (Expression.addContents counterpart.reckon other.kept factor)) := by
    refine .bind_get (fun heap second heaps => ?_)
    refine .bind_check (Expression.after_alike (seen_kept alike heaps number)
      (Expression.addContents_alike alike.reckon other factor)) ?_
    exact fun _ _ _ => .pure rfl
  cases other with
  | expression source contents => exact addExpression_alike alike number source factor
  | _ => exact refused

theorem addMultiple_alike (term : Value α) (factor : α) :
    UpdatesAlike (addMultiple outlook number term factor)
      (addMultiple counterpart number term.kept factor) := by
  refine .after_check (fun accepted => ?_)
  have reason := Error.kept_unsupported term
  cases term with
  | number amount => exact addConstant_alike alike number _
  | handle handle =>
      have handles : handle.participant.kept = handle.kept.participant.kept := rfl
      exact addTerm_alike alike number handles accepted
  | expression other contents => exact addExpression_alike alike number other accepted
  | _ => exact .throw reason

theorem scale_alike (factor : α) :
    UpdatesAlike (scale outlook number factor) (scale counterpart number factor) := by
  refine .after_check (fun accepted => .bind_get (fun heap other heaps => ?_))
  have targets := seen_kept alike heaps number
  dsimp only
  rw [Expression.constant_of_kept targets]
  refine .after_check (fun constant => ?_)
  exact rebuild_alike number rfl (Expression.termList_of_kept targets) accepted constant

/-- Edits that differ in the handles of their arguments do the same. -/
theorem edit_alike (given : Expression.Edit α) :
    UpdatesAlike (edit outlook number given) (edit counterpart number given.kept) := by
  cases given with
  | addConstant amount =>
      refine .bind_check (amount.scalar_alike "add") (fun accepted _ same => ?_)
      cases same
      exact addConstant_alike alike number accepted
  | addVariable handle coefficient =>
      refine .bind_check coefficient.finite_alike (fun accepted _ same => ?_)
      cases same
      refine .bind_check handle.participant_alike (fun _ _ handles => ?_)
      exact addTerm_alike alike number handles accepted
  | addExpression other factor =>
      refine .bind_check (factor.scalar_alike "multiply") (fun accepted _ same => ?_)
      cases same
      exact addContents_alike alike number other accepted
  | addMultiple term factor =>
      refine .bind_check (factor.scalar_alike "multiply") (fun accepted _ same => ?_)
      cases same
      exact addMultiple_alike alike number term accepted
  | scale factor =>
      refine .bind_check (factor.scalar_alike "multiply") (fun accepted _ same => ?_)
      cases same
      exact scale_alike alike number accepted
  | setRelation relation =>
      refine .bind_check relation.relation_alike (fun accepted _ same => ?_)
      cases same
      exact setRelation_alike number accepted

end Updates

section Making

def Receiver.kept : Receiver → Receiver
  | .variable handle => .variable handle.kept
  | .object number => .object number

theorem ofValue_alike (value : Value α) :
    Check.Alike Receiver.kept (Receiver.ofValue value) (Receiver.ofValue value.kept) := by
  have reason := Error.kept_unsupported value
  cases value with
  | handle handle => exact .ok rfl
  | expression number contents => exact .ok rfl
  | _ => exact .error reason

theorem times_alike {handle other : Variable} (handles : handle.kept = other.kept) (factor : α) :
    Check.Alike Expression.kept (handle.times factor) (other.times factor) := by
  apply Expression.assemble_alike
  have participants : handle.participant.kept = other.participant.kept :=
    (congrArg Variable.participant handles :)
  simp [participants]

variable {outlook counterpart : Outlook α} (alike : outlook.Alike counterpart)

include alike

theorem copy_alike (number : Nat) :
    UpdatesAlike (copy outlook number) (copy counterpart number) :=
  .bind_get (fun _ _ heaps => create_alike (seen_kept alike heaps number))

theorem startFrom_alike {receiver other : Receiver} (same : receiver.kept = other.kept) :
    UpdatesAlike (startFrom outlook receiver) (startFrom counterpart other) := by
  match receiver, other with
  | .variable handle, .variable other =>
      refine .bind_check (times_alike (Receiver.variable.inj same) 1) ?_
      exact fun _ _ started => create_alike started
  | .object number, .object other =>
      cases same
      exact copy_alike alike number
  | .variable _, .object _ => cases same
  | .object _, .variable _ => cases same

theorem combine_alike {receiver other : Receiver} (same : receiver.kept = other.kept)
    (operand : Value α) (factor : α) :
    UpdatesAlike (combine outlook receiver operand factor)
      (combine counterpart other operand.kept factor) := by
  refine (startFrom_alike alike same).bind (fun result _ numbers => ?_)
  cases numbers
  exact (addMultiple_alike alike result operand factor).bind (fun _ _ _ => .pure rfl)

theorem multiple_alike {receiver other : Receiver} (same : receiver.kept = other.kept)
    (factor : α) :
    UpdatesAlike (multiple outlook receiver factor) (multiple counterpart other factor) := by
  match receiver, other with
  | .variable handle, .variable other =>
      refine .bind_check (times_alike (Receiver.variable.inj same) factor) ?_
      exact fun _ _ started => create_alike started
  | .object number, .object other =>
      cases same
      refine .bind_get (fun heap second heaps => ?_)
      have relations := Expression.relation_of_kept (seen_kept alike heaps number)
      have zeros : (Expression.zero (heap.seen outlook number).relation : Expression α).kept =
          (Expression.zero (second.seen counterpart number).relation).kept := by
        rw [relations]
      refine (create_alike zeros).bind (fun result _ numbers => ?_)
      cases numbers
      exact (addExpression_alike alike result number factor).bind (fun _ _ _ => .pure rfl)
  | .variable _, .object _ => cases same
  | .object _, .variable _ => cases same

theorem operateOn_alike (operator : Operator) {receiver other : Receiver}
    (same : receiver.kept = other.kept) (operand : Value α) :
    UpdatesAlike (operateOn outlook operator receiver operand)
      (operateOn counterpart operator other operand.kept) := by
  cases operator with
  | plus => exact combine_alike alike same operand 1
  | minus => exact combine_alike alike same operand (-1)
  | multiply =>
      refine .bind_check (operand.scalar_alike "multiply") (fun factor _ factors => ?_)
      cases factors
      exact multiple_alike alike same factor
  | divide =>
      refine .bind_check (operand.scalar_alike "divide") (fun divisor _ divisors => ?_)
      cases divisors
      exact multiple_alike alike same (1 / divisor)
  | negate => exact multiple_alike alike same (-1)
  | relate relation =>
      refine (combine_alike alike same operand (-1)).bind (fun result _ numbers => ?_)
      cases numbers
      exact (setRelation_alike result relation).bind (fun _ _ _ => .pure rfl)

theorem sum_alike (terms : List (Value α)) :
    UpdatesAlike (sum outlook terms) (sum counterpart (terms.map Value.kept)) := by
  refine (create_alike rfl).bind (fun result _ numbers => ?_)
  cases numbers
  have added : UpdatesAlike (terms.forM (fun term => addMultiple outlook result term 1))
      ((terms.map Value.kept).forM (fun term => addMultiple counterpart result term 1)) := by
    apply Alike.forM_map
    exact fun term => addMultiple_alike alike result term 1
  exact added.bind (fun _ _ _ => .pure rfl)

/-- Makings that differ in the handles of their arguments make the same. -/
theorem make_alike (making : Making α) :
    UpdatesAlike (make outlook making) (make counterpart making.kept) := by
  cases making with
  | build handles coefficients constant relation =>
      refine .bind_check (Expression.build_alike alike.reckon handles coefficients constant
        relation) ?_
      exact fun _ _ same => create_alike same
  | operate operator receiver operand =>
      refine .bind_check (ofValue_alike receiver) (fun _ _ same => ?_)
      exact operateOn_alike alike operator same operand
  | copy number => exact copy_alike alike number
  | sum terms => exact sum_alike alike terms
  | receive expression => exact create_alike expression.kept_kept.symm

end Making

end Heap

end LinearProgram
