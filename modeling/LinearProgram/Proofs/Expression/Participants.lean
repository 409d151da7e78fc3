import LinearProgram.Model.Storage
import LinearProgram.Proofs.Expression.Updates

/-!
# What takes part in expressions

No update brings anything into an expression but the participants of its
operands.  So a property of participants that the expression and its operands
have, the result has.  What is read from a row takes part by the handles that were
found for its cells, and there has to be one for each.
-/

namespace LinearProgram

variable {α : Type} [Scalar α] {property : Participant → Prop}

namespace Terms

variable {terms result : Terms α}

/-- All that takes part has a property. -/
def Over (property : Participant → Prop) (terms : Terms α) : Prop :=
  ∀ entry ∈ terms.toList, property entry.2.participant

omit [Scalar α] in
theorem over_empty : Over property (OrderedMap.empty : Terms α) := by
  intro entry membership
  cases membership

theorem Over.add (spans : terms.Over property) {participant : Participant}
    {coefficient : α} (allowed : property participant)
    (success : terms.add participant coefficient = .ok result) :
    result.Over property := by
  obtain ⟨_, sum, _, written⟩ := add_ok_cases success
  intro entry membership
  rcases written with rfl | ⟨_, rfl⟩
  · exact spans entry (OrderedMap.mem_erase_iff.mp membership).2
  · rcases OrderedMap.mem_insert_iff.mp membership with rfl | ⟨_, old⟩
    · dsimp only
      cases found : terms.get? participant.index with
      | none => exact allowed
      | some term => exact spans _ (OrderedMap.get?_eq_some_iff.mp found)
    · exact spans entry old

theorem Over.addScaled (spans : terms.Over property) {added : Terms α} {factor : α}
    (addedSpans : added.Over property)
    (success : terms.addScaled added.values factor = .ok result) :
    result.Over property := by
  apply Check.foldlM_keeps _ spans success
  intro state term next membership stateSpans stepped
  obtain ⟨entry, entryMember, rfl⟩ := List.mem_map.mp membership
  exact stateSpans.add (addedSpans entry entryMember) stepped

end Terms

def Expression.Over (property : Participant → Prop) (expression : Expression α) :
    Prop :=
  expression.terms.Over property

/-- An operand brings in participants with a property only. -/
def Value.Over (property : Participant → Prop) : Value α → Prop
  | handle value => property value.participant
  | expression _ value => value.Over property
  | _ => True

namespace Expression

variable {expression other result : Expression α}

theorem over_addTerm (spans : expression.Over property)
    {participant : Participant} {coefficient : α} (allowed : property participant)
    (success : addTerm participant coefficient expression = .ok () result) :
    result.Over property := by
  obtain ⟨terms, addition, rfl⟩ := terms_of_addTerm success
  exact spans.add allowed addition

theorem over_addExpression (spans : expression.Over property)
    (otherSpans : other.Over property) {factor : α}
    (success : addExpression other factor expression = .ok () result) :
    result.Over property := by
  obtain ⟨terms, addition, _, rfl⟩ := parts_of_addExpression success
  exact spans.addScaled otherSpans addition

theorem over_addMultiple (spans : expression.Over property)
    {operand : Value α} (operandSpans : operand.Over property) {factor : α}
    (success : addMultiple operand factor expression = .ok () result) :
    result.Over property := by
  unfold addMultiple at success
  obtain ⟨accepted, _, added⟩ := Update.ok_of_check_bind success
  cases operand with
  | number amount =>
      obtain ⟨_, rfl⟩ := constant_of_addConstant added
      exact spans
  | handle handle => exact over_addTerm spans operandSpans added
  | expression number other => exact over_addExpression spans operandSpans added
  | _ => cases added

theorem over_assemble {multiples : List (Participant × α)} {constant : α}
    {relation : Relation}
    (allowed : ∀ multiple ∈ multiples, property multiple.1)
    (success : assemble multiples constant relation = .ok result) :
    result.Over property := by
  obtain ⟨amount, _, added⟩ := Check.ok_of_bind success
  obtain ⟨terms, sum, written⟩ := Check.ok_of_bind added
  cases written
  have start : Terms.Over property (OrderedMap.empty : Terms α) :=
    Terms.over_empty
  apply Check.foldlM_keeps _ start sum
  intro state multiple next membership stateSpans stepped
  exact stateSpans.add (allowed multiple membership) stepped

theorem over_sum {values : List (Value α)}
    (valuesSpans : ∀ value ∈ values, value.Over property)
    (success : sum values = .ok result) : result.Over property := by
  have start : (zero : Expression α).Over property := Terms.over_empty
  apply Check.foldlM_keeps _ start success
  intro total value next membership totalSpans added
  exact over_addMultiple totalSpans (valuesSpans value membership)
    (ok_of_after added)

end Expression

namespace Row

variable {row : Row α} {handles : List Variable} {kept : Index → Variable}
  {relation : Relation} {result : Expression α}

theorem addCell_eq {sum : Terms α} {cell : Index × α} {handle : Variable}
    (found : cell.1.get? handles = some handle) :
    addCell handles sum cell = sum.add handle.participant cell.2 := by
  unfold addCell Terms.add LinearProgram.finite Index.entry
  rw [found]
  by_cases finite : Scalar.isFinite cell.2 = true
  · simp only [if_pos finite, bind, Except.bind]
  · simp only [if_neg finite, bind, Except.bind]

/-- Where each cell has a handle, the row is read as multiples of these. -/
theorem toExpression_eq_assemble
    (found : ∀ cell ∈ row.cells.toList, cell.1.get? handles = some (kept cell.1)) :
    row.toExpression handles relation =
      Expression.assemble (row.cells.toList.map (fun cell =>
        ((kept cell.1).participant, cell.2))) row.constant relation := by
  have folded : ∀ (cells : List (Index × α)) (start : Terms α),
      (∀ cell ∈ cells, cell.1.get? handles = some (kept cell.1)) →
      cells.foldlM (addCell handles) start =
        (cells.map (fun cell => ((kept cell.1).participant, cell.2))).foldlM
          (fun sum term => sum.add term.1 term.2) start := by
    intro cells
    induction cells with
    | nil => exact fun _ _ => rfl
    | cons cell rest induction =>
        intro start found
        rw [List.map_cons, List.foldlM_cons, List.foldlM_cons,
          addCell_eq (found cell List.mem_cons_self)]
        congr 1
        funext sum
        exact induction sum (fun other membership =>
          found other (List.mem_cons_of_mem _ membership))
  rw [toExpression, Expression.assemble, folded _ _ found]

/-- A row that can be read has a handle for each cell. -/
theorem exists_kept_of_toExpression
    (success : row.toExpression handles relation = .ok result) :
    ∃ kept : Index → Variable,
      ∀ cell ∈ row.cells.toList, cell.1.get? handles = some (kept cell.1) := by
  obtain ⟨_, _, read⟩ := Check.ok_of_bind success
  obtain ⟨terms, added, _⟩ := Check.ok_of_bind read
  have present : ∀ (cells : List (Index × α)) (start : Terms α),
      cells.foldlM (addCell handles) start = .ok terms →
      ∀ cell ∈ cells, (cell.1.get? handles).isSome = true := by
    intro cells
    induction cells with
    | nil => exact fun _ _ _ => nofun
    | cons first rest induction =>
        intro start added cell membership
        rw [List.foldlM_cons] at added
        obtain ⟨sum, stepped, later⟩ := Check.ok_of_bind added
        rcases List.mem_cons.mp membership with rfl | inRest
        · obtain ⟨_, _, looked⟩ := Check.ok_of_bind stepped
          obtain ⟨_, entry, _⟩ := Check.ok_of_bind looked
          exact Index.isSome_of_entry entry
        · exact induction sum later cell inRest
  let unnamed : ModelRef := ⟨0, ""⟩
  refine ⟨fun index => (index.get? handles).getD (unnamed.variable index), ?_⟩
  intro cell membership
  have listed := present _ _ added cell membership
  obtain ⟨handle, found⟩ := Option.isSome_iff_exists.mp listed
  dsimp only
  rw [found]
  rfl

/-- What is read from a row was put together from multiples of the handles. -/
theorem assemble_of_toExpression
    (success : row.toExpression handles relation = .ok result) :
    ∃ kept : Index → Variable,
      (∀ cell ∈ row.cells.toList, cell.1.get? handles = some (kept cell.1)) ∧
        Expression.assemble (row.cells.toList.map (fun cell =>
          ((kept cell.1).participant, cell.2))) row.constant relation = .ok result := by
  obtain ⟨kept, found⟩ := exists_kept_of_toExpression success
  rw [toExpression_eq_assemble found] at success
  exact ⟨kept, found, success⟩

end Row

end LinearProgram
