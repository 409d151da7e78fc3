import LinearProgram.Proofs.Expression.Keys
import LinearProgram.Proofs.Heap.Addition

/-!
# The handles that objects keep

All that is written into the tables of a heap are additions to terms, or terms of other
objects.  So every term is found under the index of its own handle, whatever is made
and changed, whether that succeeds or fails.

The key of a term of a new object was taken over from another one, or it is the handle
with which an addition inserted the term.  A change in place leaves the key of a term
that it does not insert.
-/

namespace LinearProgram

variable {α : Type} [Scalar α]

/-- Participants stay at their indices when they are seen. -/
def Outlook.InPlace (outlook : Outlook α) : Prop :=
  ∀ participant, (outlook.see participant).index = participant.index

/-- What is seen as a variable is that variable. -/
def Outlook.SeesThrough (outlook : Outlook α) : Prop :=
  ∀ participant (handle : Variable), outlook.see participant = handle.participant →
    participant = handle.participant

namespace Heap

open Update (Preserves)

/-- Every term in a table is found under the index of its own handle. -/
def Filed (heap : Heap α) : Prop := ∀ terms ∈ heap.tables, terms.Filed

section Writing

variable {heap : Heap α} {terms : Terms α}

omit [Scalar α] in
theorem Filed.termsAt (filed : heap.Filed) (table : Nat) : (heap.termsAt table).Filed := by
  unfold Heap.termsAt
  cases found : heap.tables[table]? with
  | none => exact Terms.filed_empty
  | some terms => exact filed terms (List.mem_of_getElem? found)

omit [Scalar α] in
theorem Filed.read? (filed : heap.Filed) {number : Nat} {expression : Expression α}
    (found : heap.read? number = some expression) : expression.terms.Filed := by
  obtain ⟨body, _, rfl⟩ := Option.map_eq_some_iff.mp found
  exact filed.termsAt body.table

omit [Scalar α] in
theorem Filed.addTable (filed : heap.Filed) (added : terms.Filed) :
    (heap.addTable terms).Filed := by
  intro other membership
  rcases List.mem_append.mp membership with before | new
  · exact filed other before
  · cases List.mem_singleton.mp new
    exact added

omit [Scalar α] in
theorem Filed.putTable (filed : heap.Filed) (table : Nat) (put : terms.Filed) :
    (heap.putTable table terms).Filed := by
  intro other membership
  rcases List.mem_or_eq_of_mem_set membership with before | rfl
  · exact filed other before
  · exact put

omit [Scalar α] in
theorem Filed.putTerms (filed : heap.Filed) (number : Nat) (put : terms.Filed) :
    (heap.putTerms number terms).Filed := by
  unfold Heap.putTerms
  cases heap.bodies[number]? with
  | none => exact filed
  | some body => exact filed.putTable body.table put

theorem filed_map {outlook : Outlook α} (inPlace : outlook.InPlace) {expression : Expression α}
    (filed : expression.terms.Filed) : (expression.map outlook.see).terms.Filed := by
  intro entry membership
  obtain ⟨old, before, rfl⟩ := List.mem_map.mp membership
  exact (inPlace _).trans (filed old before)

theorem Filed.seen {outlook : Outlook α} (inPlace : outlook.InPlace) (filed : heap.Filed)
    (number : Nat) : (heap.seen outlook number).terms.Filed := by
  apply filed_map inPlace
  cases found : heap.read? number with
  | none => exact Terms.filed_empty
  | some expression => exact filed.read? found

end Writing

section Updates

theorem filed_newTable {terms : Terms α} (filed : terms.Filed) :
    Preserves Filed (newTable terms) := by
  refine .after_get (fun heap _ => ?_)
  exact Preserves.bind (.modify (fun _ others => others.addTable filed)) (fun _ => .pure _)

theorem filed_create {expression : Expression α} (filed : expression.terms.Filed) :
    Preserves Filed (create expression) := by
  refine Preserves.bind (filed_newTable filed) (fun table => ?_)
  refine .after_get (fun heap _ => ?_)
  exact Preserves.bind (.modify (fun _ others => others)) (fun _ => .pure _)

theorem filed_insertTerms (table : Nat) (terms : List (Term α)) (factor : α) :
    Preserves Filed (insertTerms table terms factor) := by
  refine .forM (fun term _ => .after_get (fun heap filed => .after_check (fun sum added => ?_)))
  exact .modify (fun _ others => others.putTable table ((filed.termsAt table).add added))

theorem filed_rebuild (number : Nat) {start : Terms α} (filed : start.Filed)
    (added : List (Term α)) (factor constant : α) :
    Preserves Filed (rebuild number start added factor constant) := by
  refine Preserves.bind (filed_newTable filed) (fun table => ?_)
  refine Preserves.bind (filed_insertTerms table added factor) (fun _ => ?_)
  exact .modify (fun _ others => others)

theorem filed_setRelation (number : Nat) (relation : Relation) :
    Preserves Filed (setRelation number relation : HeapUpdate α Unit) :=
  .modify (fun _ others => others)

variable {outlook : Outlook α} (number : Nat)

theorem filed_addConstant (amount : α) :
    Preserves Filed (addConstant outlook number amount) := by
  refine .after_check (fun accepted _ => .after_get (fun heap _ => ?_))
  exact .after_check (fun constant _ => .modify (fun _ others => others))

theorem filed_scale (factor : α) : Preserves Filed (scale outlook number factor) := by
  refine .after_check (fun accepted _ => .after_get (fun heap _ => ?_))
  exact .after_check (fun constant _ => filed_rebuild number Terms.filed_empty _ _ _)

variable (inPlace : outlook.InPlace)

include inPlace

theorem filed_addTerm (participant : Participant) (coefficient : α) :
    Preserves Filed (addTerm outlook number participant coefficient) := by
  refine .after_get (fun heap filed => .after_check (fun sum added => ?_))
  exact .modify (fun _ others =>
    others.putTerms number ((filed.seen inPlace number).add added))

theorem filed_addExpression (other : Nat) (factor : α) :
    Preserves Filed (addExpression outlook number other factor) := by
  refine .after_check (fun accepted _ => .after_get (fun heap filed => .after_get (fun _ _ => ?_)))
  refine .after_check (fun _ _ => .after_check (fun _ _ => .after_check (fun constant _ => ?_)))
  exact filed_rebuild number (filed.seen inPlace number) _ _ _

theorem filed_addContents (other : Value α) (factor : α) :
    Preserves Filed (addContents outlook number other factor) := by
  cases other with
  | expression source contents => exact filed_addExpression number inPlace source factor
  | _ =>
      refine .after_get (fun heap _ => .after_check (fun _ _ => ?_))
      exact .pure _

theorem filed_addMultiple (term : Value α) (factor : α) :
    Preserves Filed (addMultiple outlook number term factor) := by
  refine .after_check (fun accepted _ => ?_)
  cases term with
  | number amount => exact filed_addConstant number _
  | handle handle => exact filed_addTerm number inPlace _ _
  | expression other contents => exact filed_addExpression number inPlace other _
  | _ => exact .throw _

theorem filed_edit (edit : Expression.Edit α) :
    Preserves Filed (Heap.edit outlook number edit) := by
  cases edit with
  | addConstant amount => exact .after_check (fun accepted _ => filed_addConstant number _)
  | addVariable handle coefficient =>
      refine .after_check (fun accepted _ => .after_check (fun participant _ => ?_))
      exact filed_addTerm number inPlace participant accepted
  | addExpression other factor =>
      exact .after_check (fun accepted _ => filed_addContents number inPlace other accepted)
  | addMultiple term factor =>
      exact .after_check (fun accepted _ => filed_addMultiple number inPlace term accepted)
  | scale factor => exact .after_check (fun accepted _ => filed_scale number accepted)
  | setRelation relation =>
      exact .after_check (fun accepted _ => filed_setRelation number accepted)

end Updates

section Makings

variable {outlook : Outlook α} (inPlace : outlook.InPlace)

theorem filed_times {handle : Variable} {factor : α} {expression : Expression α}
    (success : handle.times factor = .ok expression) : expression.terms.Filed :=
  Terms.filed_empty.gather (Operator.gather_of_times success)

include inPlace

theorem filed_startFrom (receiver : Receiver) : Preserves Filed (startFrom outlook receiver) := by
  match receiver with
  | .variable handle => exact .after_check (fun _ success => filed_create (filed_times success))
  | .object number => exact .after_get (fun heap filed => filed_create (filed.seen inPlace number))

theorem filed_combine (receiver : Receiver) (operand : Value α) (factor : α) :
    Preserves Filed (combine outlook receiver operand factor) := by
  refine Preserves.bind (filed_startFrom inPlace receiver) (fun result => ?_)
  exact Preserves.bind (filed_addMultiple result inPlace operand factor) (fun _ => .pure _)

theorem filed_multiple (receiver : Receiver) (factor : α) :
    Preserves Filed (multiple outlook receiver factor) := by
  match receiver with
  | .variable handle => exact .after_check (fun _ success => filed_create (filed_times success))
  | .object number =>
      refine .after_get (fun heap _ => ?_)
      refine Preserves.bind (filed_create Terms.filed_empty) (fun result => ?_)
      exact Preserves.bind (filed_addExpression result inPlace number factor) (fun _ => .pure _)

theorem filed_operateOn (operator : Operator) (receiver : Receiver) (operand : Value α) :
    Preserves Filed (operateOn outlook operator receiver operand) := by
  cases operator with
  | plus | minus => exact filed_combine inPlace receiver operand _
  | multiply => exact .after_check (fun factor _ => filed_multiple inPlace receiver factor)
  | divide => exact .after_check (fun divisor _ => filed_multiple inPlace receiver _)
  | negate => exact filed_multiple inPlace receiver _
  | relate relation =>
      refine Preserves.bind (filed_combine inPlace receiver operand _) (fun result => ?_)
      exact Preserves.bind (filed_setRelation result relation) (fun _ => .pure _)

theorem filed_sum (terms : List (Value α)) : Preserves Filed (sum outlook terms) := by
  refine Preserves.bind (filed_create Terms.filed_empty) (fun result => ?_)
  have each : Preserves Filed (terms.forM (fun term => addMultiple outlook result term 1)) :=
    .forM (fun term _ => filed_addMultiple result inPlace term 1)
  exact each.bind (fun _ => .pure _)

/-- Whatever is received keeps its terms at the indices of their handles. -/
def Making.Filed : Making α → Prop
  | .receive expression => expression.terms.Filed
  | _ => True

theorem filed_make (making : Making α) (filed : making.Filed) :
    Preserves Heap.Filed (make outlook making) := by
  cases making with
  | build handles coefficients constant relation =>
      refine .after_check (fun built success => filed_create ?_)
      exact Terms.filed_empty.gather (Expression.gather_of_build success)
  | operate operator receiver operand =>
      exact .after_check (fun receiver _ => filed_operateOn inPlace operator receiver operand)
  | copy number => exact .after_get (fun heap filed => filed_create (filed.seen inPlace number))
  | sum terms => exact filed_sum inPlace terms
  | receive expression => exact filed_create filed

end Makings

section Steps

variable {outlook : Outlook α} {heap : Heap α}

theorem Filed.after_make (filed : heap.Filed) (inPlace : outlook.InPlace) {making : Making α}
    (received : making.Filed) : (heap.after (.make outlook making)).Filed := by
  have leaves := filed_make inPlace making received heap filed
  unfold Update.Leaves at leaves
  unfold after
  split at leaves <;> simp_all

theorem Filed.after_edit (filed : heap.Filed) (inPlace : outlook.InPlace) (number : Nat)
    (edit : Expression.Edit α) : (heap.after (.edit outlook number edit)).Filed := by
  have leaves := filed_edit number inPlace edit heap filed
  unfold Update.Leaves at leaves
  unfold after
  split at leaves <;> simp_all

end Steps

section Keys

variable {outlook : Outlook α} {heap final : Heap α} {number : Nat} {index : Index}
  {handle : Variable}

/-- The handle with which an object lists a term. -/
def key? (heap : Heap α) (number : Nat) (index : Index) : Option Participant :=
  (heap.read? number).bind (fun expression => expression.terms.key? index)

theorem key?_map_see (through : outlook.SeesThrough) (expression : Expression α) :
    (expression.map outlook.see).terms.key? index = some handle.participant ↔
      expression.terms.key? index = some handle.participant := by
  have seen : (expression.map outlook.see).terms.key? index =
      (expression.terms.key? index).map outlook.see := by
    rw [Terms.key?, Terms.key?, Expression.map, OrderedMap.get?_map, Option.map_map,
      Option.map_map]
    rfl
  rw [seen, Option.map_eq_some_iff]
  constructor
  · rintro ⟨participant, found, same⟩
    rw [found, through participant handle same]
  · exact fun found => ⟨_, found, outlook.see_variable handle⟩

/-- A handle that is seen as a key is a key, and the other way around. -/
theorem key?_seen (through : outlook.SeesThrough) :
    (heap.seen outlook number).terms.key? index = some handle.participant ↔
      heap.key? number index = some handle.participant := by
  rw [key?]
  cases found : heap.read? number with
  | none =>
      have empty : (heap.seen outlook number).terms.key? index = none := by
        rw [seen, found]
        rfl
      rw [empty]
      rfl
  | some expression =>
      rw [seen_of_read? found]
      exact key?_map_see through expression

omit [Scalar α] in
theorem Keeps.key?_eq {kept : Nat → Prop} (keeps : Keeps kept heap final)
    (present : number < heap.size) (unchanged : kept number) :
    final.key? number index = heap.key? number index := by
  rw [key?, key?, keeps.same number present unchanged]

/-- What becomes of the key of a term by a change in place. -/
theorem key_of_edit (through : outlook.SeesThrough) (inPlace : outlook.InPlace)
    (separate : heap.Separate) (filed : heap.Filed) {edit : Expression.Edit α}
    (present : number < heap.size) (success : Heap.edit outlook number edit heap = .ok () final)
    (found : final.key? number index = some handle.participant) :
    (heap.seen outlook number).terms.Retains (heap.refresh outlook edit).added index
        handle.participant ∨
      (heap.seen outlook number).terms.Inserts (heap.refresh outlook edit).added index
        handle.participant := by
  obtain ⟨changed, applied, seen⟩ :=
    (follows_edit separate edit).exists_changed success present
  have key : changed.terms.key? index = some handle.participant := by
    rw [← key?_map_see through, ← seen, key?_seen through]
    exact found
  exact Expression.key_of_edit (filed.seen inPlace number) (Expression.ok_of_after applied) key

/-- The terms with which the making of an object begins. -/
def Making.start (outlook : Outlook α) (heap : Heap α) : Making α → Terms α
  | .operate operator receiver _ => operator.start receiver
  | .copy number => (heap.seen outlook number).terms
  | .receive expression => expression.terms
  | .build _ _ _ _ | .sum _ => OrderedMap.empty

/-- The multiples that are added then, one after the other. -/
def Making.added (outlook : Outlook α) : Making α → List (Participant × α)
  | .build handles coefficients _ _ =>
    (Expression.pairs outlook.reckon handles coefficients).filterMap Expression.joined?
  | .operate operator receiver operand => operator.added receiver operand
  | .sum terms => terms.flatMap (Value.multiples 1)
  | .copy _ | .receive _ => []

theorem gather_of_stated {making : Making α} {expression : Expression α}
    (success : making.stated outlook heap = .ok expression) :
    (making.start outlook heap).gather (making.added outlook) = .ok expression.terms := by
  cases making with
  | build handles coefficients constant relation => exact Expression.gather_of_build success
  | operate operator receiver operand => exact Operator.gather_of_apply success
  | copy number =>
      cases success
      rfl
  | sum terms => exact Expression.gather_of_sum success
  | receive expression =>
      cases success
      rfl

/-- Where the key of a term of a new object comes from. -/
theorem key_of_make (through : outlook.SeesThrough) (separate : heap.Separate)
    {making : Making α} (known : making.Known outlook heap)
    (success : make outlook making heap = .ok number final)
    (found : final.key? number index = some handle.participant) :
    (making.start outlook heap).Retains (making.added outlook) index handle.participant ∨
      (making.start outlook heap).Inserts (making.added outlook) index handle.participant := by
  have realizes : Realizes outlook heap _ (make outlook making) _ := realizes_make separate making
  obtain ⟨outcome, yields, stated⟩ := realizes
  cases yields with
  | error failure keeps =>
      rw [success] at failure
      cases failure
  | ok made result =>
      rw [success] at made
      cases made
      rw [← key?_seen through, result.holds, key?_map_see through] at found
      exact Terms.retains_or_inserts (gather_of_stated (stated known).symm) found

end Keys

end Heap

end LinearProgram
