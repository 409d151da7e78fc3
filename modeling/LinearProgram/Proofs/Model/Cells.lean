import LinearProgram.Proofs.Model.SolutionHistory
import LinearProgram.Proofs.OrderedMap

/-!
# Cells in range

As long as callers only use variables that are in the table, every cell of every
constraint belongs to one of them, and none is negligible.  A new variable may
be given cells at once, so its place counts as in range while its column is
written.

All of this comes from one fact about any set of indices: cells belong to
variables with such indices for as long as nothing else is written to rows.
-/

namespace LinearProgram

variable {α : Type} [Scalar α]

/-- The cells of a row belong to variables with such indices, and none is
negligible. -/
def Row.Within (row : Row α) (allowed : Index → Prop) : Prop :=
  ∀ cell ∈ row.cells.toList,
    allowed cell.1 ∧ Scalar.nearZero cell.2 = false

/-- The cells of a row belong to the first so many variables. -/
def Row.Over (row : Row α) (count : Nat) : Prop :=
  ∀ cell ∈ row.cells.toList,
    (∃ position < count, cell.1 = .place position) ∧
      Scalar.nearZero cell.2 = false

namespace Row

variable {row : Row α} {allowed : Index → Prop} {count : Nat}

theorem within_empty (constant : α) (allowed : Index → Prop) :
    Within { constant } allowed := by
  simp [Within, OrderedMap.empty]

theorem Within.insert (spans : row.Within allowed) {index : Index}
    (inside : allowed index) (amount : α) :
    (row.insert index amount).Within allowed := by
  intro cell membership
  simp only [Row.insert] at membership
  split at membership
  · exact spans cell (OrderedMap.mem_erase_iff.mp membership).2
  · rename_i large
    rcases OrderedMap.mem_insert_iff.mp membership with rfl | ⟨_, old⟩
    · exact ⟨inside, by simpa using large⟩
    · exact spans cell old

theorem Within.remove (spans : row.Within allowed) (index : Index) :
    (row.remove index).Within allowed := by
  intro cell membership
  exact spans cell (OrderedMap.mem_erase_iff.mp membership).2

theorem Within.mono (spans : row.Within allowed) {more : Index → Prop}
    (wider : ∀ index, allowed index → more index) : row.Within more := by
  intro cell membership
  obtain ⟨inside, large⟩ := spans cell membership
  exact ⟨wider _ inside, large⟩

theorem within_ofExpression {expression : Expression α}
    (inside : ∀ term ∈ expression.termList, allowed term.participant.index) :
    (ofExpression expression).Within allowed := by
  have folded : ∀ (terms : List (Term α)) (start : Row α),
      start.Within allowed →
      (∀ term ∈ terms, allowed term.participant.index) →
      Within (terms.foldl (fun row term =>
        row.insert term.participant.index term.coefficient) start) allowed := by
    intro terms
    induction terms with
    | nil => exact fun _ spans _ => spans
    | cons term rest induction =>
        intro start spans terms
        apply induction _ (spans.insert (terms term List.mem_cons_self) _)
        intro other membership
        exact terms other (List.mem_cons_of_mem _ membership)
  exact folded _ _ (within_empty _ _) inside

theorem over_iff : row.Over count ↔
    row.Within (fun index => ∃ position < count, index = .place position) :=
  Iff.rfl

theorem Over.insert (spans : row.Over count) {index : Index}
    (inside : ∃ position < count, index = .place position) (amount : α) :
    (row.insert index amount).Over count :=
  over_iff.mpr ((over_iff.mp spans).insert inside amount)

theorem Over.mono (spans : row.Over count) {larger : Nat}
    (more : count ≤ larger) : row.Over larger := by
  apply over_iff.mpr
  apply (over_iff.mp spans).mono
  rintro index ⟨position, inside, place⟩
  exact ⟨position, by omega, place⟩

end Row

/-- What holds of all entries of a table, and of what becomes of one of them,
holds of all entries after it was changed. -/
theorem Index.forall_mem_modify {β : Type} {property : β → Prop} {index : Index}
    {change : β → β} {table : List β}
    (kept : ∀ entry, property entry → property (change entry))
    (holds : ∀ entry ∈ table, property entry) :
    ∀ entry ∈ index.modify change table, property entry := by
  intro entry membership
  rcases Index.mem_modify membership with old | ⟨old, found, rfl⟩
  · exact holds entry old
  · exact kept old (holds old (Index.mem_of_get? found))

theorem Index.length_modify {β : Type} (index : Index) (change : β → β)
    (table : List β) : (index.modify change table).length = table.length := by
  simp only [Index.modify]
  split
  · exact List.length_modify _ _ _
  · rfl

/-- Only what becomes of the entry that is there matters. -/
theorem Index.modify_congr {β : Type} {index : Index} {change other : β → β}
    {table : List β}
    (same : ∀ entry, index.get? table = some entry → change entry = other entry) :
    index.modify change table = index.modify other table := by
  unfold Index.get? at same
  unfold Index.modify
  cases stated : index.position? with
  | none => rfl
  | some position =>
      rw [stated] at same
      apply List.ext_getElem?
      intro place
      rw [List.getElem?_modify, List.getElem?_modify]
      by_cases reached : position = place
      · subst reached
        cases found : table[position]? with
        | none => rfl
        | some entry => simp [same entry found]
      · simp [reached]

namespace Model

variable {model : Model α}

/-- A variable that is in the table, by its place. -/
def HasVariable (model : Model α) (index : Index) : Prop :=
  ∃ position < model.columnCount, index = .place position

/-- All cells of all constraints belong to variables in the table. -/
def RowsInRange (model : Model α) : Prop :=
  ∀ data ∈ model.constraintTable, data.row.Over model.columnCount

/-- The variables of which a change speaks are in the table. -/
def Change.InRange (model : Model α) : Change α → Prop
  | addConstraint expression _ | setExpression _ expression
  | storeConstraint expression _ | storeExpression _ expression =>
    ∀ term ∈ expression.termList, model.HasVariable term.participant.index
  | setColumn index _ => model.HasVariable index
  | addConflict first second =>
    model.HasVariable first.participant.index ∧
      model.HasVariable second.participant.index
  | _ => True

/-- All cells of all constraints belong to variables with such indices. -/
def RowsWithin (model : Model α) (allowed : Index → Prop) : Prop :=
  ∀ data ∈ model.constraintTable, data.row.Within allowed

/-- What a write adds to rows belongs to variables with such indices. -/
def Write.Within (model : Model α) (allowed : Index → Prop) : Write α → Prop
  | newConstraint given _ _ | expression _ given =>
    ∀ term ∈ given.termList, allowed term.participant.index
  | entries index _ => allowed index
  | newVariable _ _ => allowed (.place model.columnCount)
  | _ => True

namespace RowsWithin

variable {allowed : Index → Prop}

theorem withConstraint (rows : model.RowsWithin allowed) (index : Index)
    {change : ConstraintRecord α → ConstraintRecord α}
    (kept : ∀ data : ConstraintRecord α, data.row.Within allowed →
      (change data).row.Within allowed) :
    (model.withConstraint index change).RowsWithin allowed :=
  Index.forall_mem_modify kept rows

theorem withEntries (rows : model.RowsWithin allowed) {index : Index}
    (inside : allowed index) (entries : List (Participant × α)) :
    (model.withEntries index entries).RowsWithin allowed := by
  refine @withEntries_keeps _ _ (fun changed => changed.RowsWithin allowed) index
    ?_ model rows entries
  intro changed entry rows
  apply rows.withConstraint entry.1.index
  intro data spans
  exact spans.insert inside _

theorem withoutCells (rows : model.RowsWithin allowed) (index : Index) :
    (model.withoutCells index).RowsWithin allowed := by
  intro data membership
  obtain ⟨old, present, rfl⟩ := List.mem_map.mp membership
  exact (rows old present).remove index

theorem withNewConstraint (rows : model.RowsWithin allowed)
    {expression : Expression α}
    (inside : ∀ term ∈ expression.termList, allowed term.participant.index)
    (name : String) :
    (model.withNewConstraint expression name).RowsWithin allowed := by
  intro data membership
  rcases List.mem_append.mp membership with old | new
  · exact rows data old
  · cases List.mem_singleton.mp new
    exact Row.within_ofExpression inside

theorem mono (rows : model.RowsWithin allowed) {more : Index → Prop}
    (wider : ∀ index, allowed index → more index) : model.RowsWithin more :=
  fun data membership => (rows data membership).mono wider

end RowsWithin

/-- A write adds cells of those variables only of which it speaks. -/
theorem RowsWithin.onto {allowed : Index → Prop} (rows : model.RowsWithin allowed)
    {write : Write α} (within : write.Within model allowed) :
    (write.onto model).RowsWithin allowed := by
  cases write with
  | newVariable options handle =>
      have start : (model.withNewVariable options).RowsWithin allowed := rows
      exact start.withEntries within _
  | newConstraint given name handle => exact rows.withNewConstraint within name
  | entries index given => exact (rows.withoutCells index).withEntries within given
  | rightHandSide index value =>
      exact rows.withConstraint index (fun _ spans => spans)
  | expression index given =>
      exact rows.withConstraint index (fun _ _ => Row.within_ofExpression within)
  | name index wanted =>
      have alike : Alike model _ := alike_name index wanted
      intro data membership
      rw [alike.constraintTable] at membership
      exact rows data membership
  | _ => exact rows

theorem RowsWithin.after {allowed : Index → Prop} (rows : model.RowsWithin allowed)
    {change : Change α}
    (within : ∀ write, model.Accepts change write → write.Within model allowed) :
    (model.after change).RowsWithin allowed := by
  refine @holds_after _ _ model change (fun model => model.RowsWithin allowed)
    rows ?_ rows
  intro write accepts
  exact rows.onto (within write accepts)

section Large

theorem within_any (write : Write α) : write.Within model (fun _ => True) := by
  cases write with
  | newConstraint | expression => exact fun _ _ => trivial
  | _ => trivial

/-- Whatever the variables are, nothing negligible is ever kept in a row. -/
theorem large_reached (reference : ModelRef) (direction : Direction)
    (changes : List (Change α)) :
    (reached reference direction changes).RowsWithin (fun _ => True) := by
  have known : Throughout reference direction changes (fun _ _ => True) :=
    throughout_of_forall (fun _ _ _ => trivial)
  refine @Throughout.invariant _ _ _ _ _ _
    (fun model => model.RowsWithin (fun _ => True)) known ?_ nofun
  intro model change _ rows
  exact rows.after (fun write _ => within_any write)

end Large

section Range

theorem rowsInRange_iff :
    model.RowsInRange ↔ model.RowsWithin model.HasVariable :=
  Iff.rfl

theorem columnCount_newVariable (model : Model α) (options : VariableOptions α)
    (handle : Option Variable) :
    ((Write.newVariable options handle).onto model).columnCount =
      model.columnCount + 1 := by
  simp [Write.onto, withNewVariable, withEntries, withoutSolution, withHandle,
    columnCount]

/-- No variable is ever taken out of the table. -/
theorem le_columnCount_onto (model : Model α) (write : Write α) :
    model.columnCount ≤ (write.onto model).columnCount := by
  cases write with
  | newVariable options handle =>
      rw [columnCount_newVariable]
      exact Nat.le_succ _
  | name index wanted =>
      exact Nat.le_of_eq (alike_name index wanted).columnCount.symm
  | lower index | upper index | kind index =>
      exact Nat.le_of_eq (Index.length_modify index _ model.variableTable).symm
  | _ => exact Nat.le_refl _

theorem HasVariable.onto {index : Index} (inside : model.HasVariable index)
    (write : Write α) : (write.onto model).HasVariable index := by
  obtain ⟨position, below, place⟩ := inside
  exact ⟨position, Nat.lt_of_lt_of_le below (le_columnCount_onto model write),
    place⟩

/-- A change that speaks of variables in the table leaves all cells in range. -/
theorem Accepts.rows {change : Change α} {write : Write α}
    (accepts : model.Accepts change write) (rows : model.RowsInRange)
    (inRange : change.InRange model) : (write.onto model).RowsInRange := by
  have known : model.RowsWithin (write.onto model).HasVariable :=
    (rowsInRange_iff.mp rows).mono (fun _ inside => inside.onto write)
  apply rowsInRange_iff.mpr
  apply known.onto
  cases accepts with
  | addVariable | storeVariable =>
      refine ⟨model.columnCount, ?_, rfl⟩
      rw [columnCount_newVariable]
      exact Nat.lt_succ_self _
  | addConstraint | storeConstraint | setExpression | storeExpression =>
      exact fun term membership => (inRange term membership).onto _
  | setColumn => exact inRange.onto _
  | _ => trivial

theorem RowsInRange.after {change : Change α} (rows : model.RowsInRange)
    (inRange : change.InRange model) : (model.after change).RowsInRange := by
  apply holds_after rows
  · intro write accepts
    exact accepts.rows rows inRange
  · exact rows

/-- If all changes speak of variables in the table, all cells are in range. -/
theorem rowsInRange_reached {reference : ModelRef} {direction : Direction}
    {changes : List (Change α)}
    (inRange : Throughout reference direction changes
      (fun model change => change.InRange model)) :
    (reached reference direction changes).RowsInRange := by
  apply inRange.invariant
  · intro model change known rows
    exact rows.after known
  · exact nofun

end Range

end Model

end LinearProgram
