import LinearProgram.Proofs.Model.Cells
import LinearProgram.Proofs.Names

/-!
# Names of variables and constraints

Every variable and every constraint has a name of its own, under which it is
found.  A change can name one more variable or constraint, or give one variable
another name, and does nothing else to the names.
-/

namespace LinearProgram

/-- What is read off all entries of a table stays if no entry changes in that
respect. -/
theorem Index.map_modify {β γ : Type} {reading : β → γ} {change : β → β}
    (kept : ∀ entry, reading (change entry) = reading entry) (index : Index)
    (table : List β) :
    (index.modify change table).map reading = table.map reading := by
  unfold Index.modify
  split
  · apply List.ext_getElem?
    intro position
    simp only [List.getElem?_map, List.getElem?_modify]
    cases table[position]? with
    | none => rfl
    | some entry =>
        apply congrArg some
        split
        · exact kept entry
        · rfl
  · rfl

namespace Model

variable {α : Type} [Scalar α]

/-- The names of the variables. -/
def columnNames (model : Model α) : NameTable :=
  ⟨model.variableNames, model.variableTable.map VariableRecord.name⟩

/-- The names of the constraints. -/
def rowNames (model : Model α) : NameTable :=
  ⟨model.constraintNames, model.constraintTable.map ConstraintRecord.name⟩

/-- What one step can do to the names of a model.  The position is that of a
variable that gets another name. -/
inductive NamesStep (model changed : Model α) : Option Nat → Prop
  | same (columns : changed.columnNames = model.columnNames)
      (rows : changed.rowNames = model.rowNames) (renamed : Option Nat) :
      NamesStep model changed renamed
  | newColumn {name : String}
      (free : model.columnNames.registry.contains name = false)
      (nonempty : name ≠ "")
      (columns : changed.columnNames = model.columnNames.append name)
      (rows : changed.rowNames = model.rowNames) :
      NamesStep model changed none
  | newRow {name : String}
      (free : model.rowNames.registry.contains name = false)
      (nonempty : name ≠ "")
      (columns : changed.columnNames = model.columnNames)
      (rows : changed.rowNames = model.rowNames.append name) :
      NamesStep model changed none
  | newName {position : Nat} {old name : String}
      (present : model.columnNames.names[position]? = some old)
      (free : OrderedMap.contains (model.columnNames.registry.erase old) name =
        false)
      (nonempty : name ≠ "")
      (columns : changed.columnNames =
        model.columnNames.replace position old name)
      (rows : changed.rowNames = model.rowNames) :
      NamesStep model changed (some position)

section Steps

variable {model changed : Model α}

theorem columnNames_withVariable (model : Model α) (index : Index)
    {change : VariableRecord α → VariableRecord α}
    (kept : ∀ data, (change data).name = data.name) :
    (model.withVariable index change).columnNames = model.columnNames :=
  congrArg (NameTable.mk _) (Index.map_modify kept index model.variableTable)

theorem rowNames_withConstraint (model : Model α) (index : Index)
    (change : ConstraintRecord α → ConstraintRecord α)
    (kept : ∀ data, (change data).name = data.name) :
    (model.withConstraint index change).rowNames = model.rowNames :=
  congrArg (NameTable.mk _) (Index.map_modify kept index model.constraintTable)

theorem rowNames_withEntries (model : Model α) (index : Index)
    (entries : List (Participant × α)) :
    (model.withEntries index entries).rowNames = model.rowNames := by
  refine @withEntries_keeps _ _ (fun changed => changed.rowNames = model.rowNames)
    index ?_ model rfl entries
  intro changed entry same
  rw [← same]
  apply changed.rowNames_withConstraint entry.1.index
  exact fun _ => rfl

theorem rowNames_withoutCells (model : Model α) (index : Index) :
    (model.withoutCells index).rowNames = model.rowNames := by
  simp [rowNames, withoutCells, Function.comp_def]

theorem variableFallback_ne_empty (position : Nat) :
    variableFallback position ≠ "" := by
  simp [variableFallback]

theorem constraintFallback_ne_empty (position : Nat) :
    constraintFallback position ≠ "" := by
  simp [constraintFallback]

theorem columnNames_withNewVariable (model : Model α)
    (options : VariableOptions α) :
    (model.withNewVariable options).columnNames =
      model.columnNames.append (model.variableNames.unique
        (options.name.getD "") (variableFallback model.columnCount)) := by
  simp [columnNames, withNewVariable, NameTable.append, columnCount]

theorem rowNames_withNewConstraint (model : Model α)
    (expression : Expression α) (name : String) :
    (model.withNewConstraint expression name).rowNames =
      model.rowNames.append (model.constraintNames.unique name
        (constraintFallback model.rowCount)) := by
  simp [rowNames, withNewConstraint, NameTable.append, rowCount]

theorem columnNames_withName {position : Nat} {old : String}
    (present : model.columnNames.names[position]? = some old) (name : String) :
    (model.withName position name).columnNames =
      model.columnNames.replace position old
        (NameRegistry.unique (model.variableNames.erase old) name
          (variableFallback position)) := by
  have named : model.variableName (.place position) = old := by
    have read : ((model.variableTable[position]?).map VariableRecord.name) =
        some old := by
      simpa [columnNames] using present
    simp [variableName, Index.get?, Index.position?, read]
  simp only [columnNames, withName, named, NameTable.replace]
  congr 1
  apply List.ext_getElem?
  intro place
  simp only [List.getElem?_map, List.getElem?_modify, List.getElem?_set]
  grind

/-- The variable that a write renames. -/
def Write.renamed? (model : Model α) : Write α → Option Nat
  | name index _ => model.variablePosition? index
  | _ => none

/-- Whatever is written, it is one of these steps for the names. -/
theorem namesStep_onto (model : Model α) (write : Write α) :
    NamesStep model (write.onto model) (write.renamed? model) := by
  cases write with
  | newVariable options =>
      refine .newColumn (model.variableNames.contains_unique _ _)
        (model.variableNames.unique_ne_empty _ (variableFallback_ne_empty _))
        (model.columnNames_withNewVariable options) ?_
      exact rowNames_withEntries (model.withNewVariable options) _ _
  | newConstraint expression name =>
      exact .newRow (model.constraintNames.contains_unique _ _)
        (model.constraintNames.unique_ne_empty _ (constraintFallback_ne_empty _))
        rfl (model.rowNames_withNewConstraint expression name)
  | name index wanted =>
      simp only [Write.onto, Write.renamed?]
      cases found : model.variablePosition? index with
      | none => exact .same rfl rfl none
      | some position =>
          have inside : position < model.variableTable.length := by
            simpa using (Option.filter_eq_some_iff.mp found).2
          have present : model.columnNames.names[position]? =
              some model.variableTable[position].name := by
            simp [columnNames, inside]
          exact .newName present (NameRegistry.contains_unique _ _ _)
            (NameRegistry.unique_ne_empty _ _ (variableFallback_ne_empty _))
            (columnNames_withName present wanted) rfl
  | lower index | upper index | kind index =>
      apply NamesStep.same
      · apply model.columnNames_withVariable index
        exact fun _ => rfl
      · rfl
  | entries index entries =>
      have inserted := rowNames_withEntries (model.withoutCells index) index
        entries
      apply NamesStep.same
      · rfl
      · exact inserted.trans (model.rowNames_withoutCells index)
  | rightHandSide index | expression index =>
      apply NamesStep.same
      · rfl
      · apply model.rowNames_withConstraint index
        exact fun _ => rfl
  | _ =>
      apply NamesStep.same
      · rfl
      · rfl

end Steps

section Keeping

variable {model changed : Model α} {renamed : Option Nat}

/-- All names are found where they are. -/
structure Named (model : Model α) : Prop where
  columns : model.columnNames.Consistent
  rows : model.rowNames.Consistent

theorem NamesStep.named (step : NamesStep model changed renamed)
    (named : model.Named) : changed.Named := by
  cases step with
  | same columns rows =>
      constructor
      · rw [columns]
        exact named.columns
      · rw [rows]
        exact named.rows
  | newColumn free nonempty columns rows =>
      constructor
      · rw [columns]
        exact named.columns.append free nonempty
      · rw [rows]
        exact named.rows
  | newRow free nonempty columns rows =>
      constructor
      · rw [columns]
        exact named.columns
      · rw [rows]
        exact named.rows.append free nonempty
  | newName present free nonempty columns rows =>
      constructor
      · rw [columns]
        exact named.columns.replace present free nonempty
      · rw [rows]
        exact named.rows

theorem NamesStep.columnName (step : NamesStep model changed renamed)
    {position : Nat} (inside : position < model.columnNames.names.length)
    (other : renamed ≠ some position) :
    changed.columnNames.names[position]? =
      model.columnNames.names[position]? := by
  cases step with
  | same columns | newRow free nonempty columns => rw [columns]
  | newColumn free nonempty columns =>
      rw [columns]
      exact List.getElem?_append_left inside
  | newName present free nonempty columns =>
      rw [columns]
      exact List.getElem?_set_ne (fun same => other (congrArg some same))

theorem NamesStep.rowName (step : NamesStep model changed renamed)
    {position : Nat} (inside : position < model.rowNames.names.length) :
    changed.rowNames.names[position]? = model.rowNames.names[position]? := by
  cases step with
  | same _ rows | newColumn _ _ _ rows | newName _ _ _ _ rows => rw [rows]
  | newRow free nonempty columns rows =>
      rw [rows]
      exact List.getElem?_append_left inside

end Keeping

section Runs

variable {model : Model α} {change : Change α}

theorem variableName_place (model : Model α) (position : Nat) :
    model.variableName (.place position) =
      (model.columnNames.names[position]?).getD "" := by
  simp [variableName, columnNames, Index.get?, Index.position?]

theorem constraintName_place (model : Model α) (position : Nat) :
    model.constraintName (.place position) =
      (model.rowNames.names[position]?).getD "" := by
  simp [constraintName, rowNames, Index.get?, Index.position?]

/-- The variable that a change renames. -/
def Change.renamed? : Change α → Option Nat
  | setName index _ => index.position?
  | _ => none

theorem Accepts.renamed {write : Write α} (accepts : model.Accepts change write)
    {position : Nat} (renamed : write.renamed? model = some position) :
    change.renamed? = some position := by
  cases accepts with
  | setName => exact (Option.filter_eq_some_iff.mp renamed).1
  | _ => cases renamed

theorem namesStep_after (model : Model α) (change : Change α) :
    ∃ renamed, NamesStep model (model.after change) renamed ∧
      ∀ position, renamed = some position → change.renamed? = some position := by
  rcases step_cases model change with
    ⟨_, unchanged⟩ | ⟨write, accepts, _, written⟩ | ⟨_, _, dropped⟩
  · rw [unchanged]
    exact ⟨none, .same rfl rfl none, nofun⟩
  · rw [written]
    exact ⟨_, model.namesStep_onto write, fun _ => accepts.renamed⟩
  · rw [dropped]
    refine ⟨none, ?_, nofun⟩
    apply NamesStep.same
    · rfl
    · rfl

/-- A change gives no other variable a name than the one that it renames, and no
constraint. -/
structure KeepsOtherNames (model : Model α) (change : Change α) : Prop where
  columns : ∀ position < model.columnCount,
    change.renamed? ≠ some position →
      (model.after change).variableName (.place position) =
        model.variableName (.place position)
  rows : ∀ position < model.rowCount,
    (model.after change).constraintName (.place position) =
      model.constraintName (.place position)

theorem keepsOtherNames (model : Model α) (change : Change α) :
    model.KeepsOtherNames change := by
  obtain ⟨renamed, step, known⟩ := namesStep_after model change
  constructor
  case columns =>
    intro position inside other
    have listed : position < model.columnNames.names.length := by
      simpa [columnNames, columnCount] using inside
    rw [variableName_place, variableName_place,
      step.columnName listed (fun same => other (known position same))]
  case rows =>
    intro position inside
    have listed : position < model.rowNames.names.length := by
      simpa [rowNames, rowCount] using inside
    rw [constraintName_place, constraintName_place, step.rowName listed]

theorem named_reached (reference : ModelRef) (direction : Direction)
    (changes : List (Change α)) :
    (reached reference direction changes).Named := by
  have any : Throughout reference direction changes (fun _ _ => True) :=
    throughout_of_forall (fun _ _ _ => trivial)
  apply any.invariant
  · intro model change _ named
    obtain ⟨_, step, _⟩ := namesStep_after model change
    exact step.named named
  · exact ⟨NameTable.consistent_empty, NameTable.consistent_empty⟩

/-- In every state, the variables have names that differ, none of them empty, and
each is found by its name and by nothing else; so are the constraints.  One more
change renames at most the variable that it is about. -/
theorem names_unique (reference : ModelRef) (direction : Direction)
    (changes : List (Change α)) :
    let model : Model α := reached reference direction changes
    Directory model.columnCount (fun position =>
        model.variableName (.place position)) model.variableByName ∧
      Directory model.rowCount (fun position =>
        model.constraintName (.place position)) model.constraintByName ∧
      ∀ change, model.KeepsOtherNames change := by
  intro model
  have named : model.Named := named_reached reference direction changes
  have columns := named.columns.directory model.variableName_place
  have rows := named.rows.directory model.constraintName_place
  have columnCount : model.columnNames.names.length = model.columnCount :=
    List.length_map _
  have rowCount : model.rowNames.names.length = model.rowCount :=
    List.length_map _
  rw [columnCount] at columns
  rw [rowCount] at rows
  exact ⟨columns, rows, model.keepsOtherNames⟩

end Runs

end Model

end LinearProgram
