import LinearProgram.Proofs.Model.Coefficients
import LinearProgram.Proofs.Model.Names

/-!
# Targets of changes

Each change is meant for some of the data that a model stores: a bound, a cell, a
constant.  Everything else is left where it is, with the value that it has, and the
cells of a row that are left keep their order.  A new variable and a new constraint
come last, so they do not move any other.

A write goes through several tables, and a column through many rows.  Data that is
kept by each of two writes is kept by both, so it is enough to say what each part
of a write is meant for.
-/

namespace LinearProgram

variable {α : Type} [Scalar α]

namespace Row

omit [Scalar α] in
/-- Cells outside the target keep their contents and their order. -/
structure KeptBut (target : Index → Prop) (before after : Row α) : Prop where
  cell : ∀ index, ¬target index → after.cells.get? index = before.cells.get? index
  order : ∀ first second, ¬target first → ¬target second →
    ([first, second].Sublist after.cells.keys ↔
      [first, second].Sublist before.cells.keys)

variable {target : Index → Prop} {row middle other : Row α} {index : Index}

namespace KeptBut

omit [Scalar α] in
theorem of_cells (same : other.cells = row.cells) : row.KeptBut target other := by
  constructor
  · intro index _
    rw [same]
  · intro first second _ _
    rw [same]

omit [Scalar α] in
theorem trans (first : row.KeptBut target middle) (second : middle.KeptBut target other) :
    row.KeptBut target other where
  cell index outside := (second.cell index outside).trans (first.cell index outside)
  order one two outside otherOutside :=
    (second.order one two outside otherOutside).trans
      (first.order one two outside otherOutside)

/-- What two lists have in the same order is not affected by an entry of which it
does not consist. -/
private theorem sublist_filter_iff {one two : Index} (apart : one ≠ index)
    (otherApart : two ≠ index) (keys : List Index) :
    [one, two].Sublist (keys.filter (· ≠ index)) ↔ [one, two].Sublist keys := by
  constructor
  · exact fun inside => inside.trans List.filter_sublist
  · intro inside
    have filtered := inside.filter (· ≠ index)
    simpa [apart, otherApart] using filtered

omit [Scalar α] in
/-- Only the cell of one index is written. -/
theorem of_index (targeted : target index)
    (cell : ∀ other, other ≠ index → middle.cells.get? other = row.cells.get? other)
    (keys : middle.cells.keys.filter (· ≠ index) = row.cells.keys.filter (· ≠ index)) :
    row.KeptBut target middle := by
  have apart : ∀ {other : Index}, ¬target other → other ≠ index := by
    rintro other outside rfl
    exact outside targeted
  constructor
  · intro other outside
    exact cell other (apart outside)
  · intro first second outside otherOutside
    rw [← sublist_filter_iff (apart outside) (apart otherOutside), keys,
      sublist_filter_iff (apart outside) (apart otherOutside)]

omit [Scalar α] in
theorem remove (targeted : target index) : row.KeptBut target (row.remove index) := by
  apply of_index targeted
  · intro other different
    rw [Row.remove, OrderedMap.get?_erase, if_neg different]
  · rw [Row.remove, OrderedMap.keys_erase, List.filter_filter]
    simp

theorem insert (targeted : target index) (amount : α) :
    row.KeptBut target (row.insert index amount) := by
  by_cases small : Scalar.nearZero (row.coefficient index + amount) = true
  · rw [insert_of_small small]
    exact remove targeted
  · rw [insert_of_large small]
    apply of_index targeted
    · intro other different
      rw [OrderedMap.get?_insert, if_neg different]
    · rw [OrderedMap.keys_insert]
      split
      · rfl
      · rw [List.filter_append]
        simp

end KeptBut

end Row

namespace Model

/-- Something that a model stores, apart from a solution. -/
inductive Part where
  /-- The name of a variable, with its entry in the registry. -/
  | name (column : Nat)
  | lower (column : Nat)
  | upper (column : Nat)
  | kind (column : Nat)
  | relation (row : Nat)
  | constant (row : Nat)
  | cell (row : Nat) (index : Index)
  /-- The constant of the objective. -/
  | offset
  | cost (index : Index)
  | direction
  | conflicts

/-- What a write is meant for. -/
inductive Write.Targets (model : Model α) : Write α → Part → Prop
  | newCost {options : VariableOptions α} {handle : Option Variable} :
      Targets model (.newVariable options handle) (.cost (.place model.columnCount))
  | newCell {options : VariableOptions α} {handle : Option Variable}
      {entry : Participant × α} {row : Nat} (listed : entry ∈ entriesOf options)
      (named : entry.1.index.position? = some row) :
      Targets model (.newVariable options handle) (.cell row (.place model.columnCount))
  | offset {given : Expression α} : Targets model (.objective given) .offset
  | objective {given : Expression α} {index : Index} :
      Targets model (.objective given) (.cost index)
  | direction {given : Direction} : Targets model (.direction given) .direction
  | name {index : Index} {wanted : String} {column : Nat}
      (named : index.position? = some column) :
      Targets model (.name index wanted) (.name column)
  | lower {index : Index} {bound : α} {column : Nat}
      (named : index.position? = some column) :
      Targets model (.lower index bound) (.lower column)
  | upper {index : Index} {bound : α} {column : Nat}
      (named : index.position? = some column) :
      Targets model (.upper index bound) (.upper column)
  | kind {index : Index} {given : StoredKind α} {column : Nat}
      (named : index.position? = some column) :
      Targets model (.kind index given) (.kind column)
  | clippedLower {index : Index} {given : StoredKind α} {column : Nat}
      (named : index.position? = some column) (binary : given.isBinary = true) :
      Targets model (.kind index given) (.lower column)
  | clippedUpper {index : Index} {given : StoredKind α} {column : Nat}
      (named : index.position? = some column) (binary : given.isBinary = true) :
      Targets model (.kind index given) (.upper column)
  | cost {index : Index} {coefficient : α} :
      Targets model (.objectiveCoefficient index coefficient) (.cost index)
  | column {index : Index} {entries : List (Participant × α)} {row : Nat} :
      Targets model (.entries index entries) (.cell row index)
  | rightHandSide {index : Index} {value : α} {row : Nat}
      (named : index.position? = some row) :
      Targets model (.rightHandSide index value) (.constant row)
  | constant {index : Index} {given : Expression α} {row : Nat}
      (named : index.position? = some row) :
      Targets model (.expression index given) (.constant row)
  | relation {index : Index} {given : Expression α} {row : Nat}
      (named : index.position? = some row) :
      Targets model (.expression index given) (.relation row)
  | cells {index other : Index} {given : Expression α} {row : Nat}
      (named : index.position? = some row) :
      Targets model (.expression index given) (.cell row other)
  | conflict {first second : Assignment} :
      Targets model (.conflict first second) .conflicts

/-- What a change is meant for, if it is accepted. -/
def Change.Targets (model : Model α) (change : Change α) (part : Part) : Prop :=
  ∃ write, model.Accepts change write ∧ write.Targets model part

section Keeping

variable (target : Part → Prop)

structure KeptVariable (column : Nat) (old new : VariableRecord α) : Prop where
  name : ¬target (.name column) → new.name = old.name
  lower : ¬target (.lower column) → new.lower = old.lower
  upper : ¬target (.upper column) → new.upper = old.upper
  kind : ¬target (.kind column) → new.kind = old.kind

omit [Scalar α] in
structure KeptConstraint (row : Nat) (old new : ConstraintRecord α) : Prop where
  name : new.name = old.name
  relation : ¬target (.relation row) → new.relation = old.relation
  constant : ¬target (.constant row) → new.row.constant = old.row.constant
  cells : old.row.KeptBut (fun index => target (.cell row index)) new.row

/-- The tables agree in everything outside the target.  Variables and constraints
stay where they were, and so do their handles. -/
structure TablesKept (before after : Model α) : Prop where
  reference : after.reference = before.reference
  variableHandles : before.variableHandles <+: after.variableHandles
  constraintHandles : before.constraintHandles <+: after.constraintHandles
  variable_kept : ∀ column old, before.variableTable[column]? = some old →
    ∃ new, after.variableTable[column]? = some new ∧ KeptVariable target column old new
  constraint_kept : ∀ row old, before.constraintTable[row]? = some old →
    ∃ new, after.constraintTable[row]? = some new ∧ KeptConstraint target row old new
  offset : ¬target .offset → after.objective.constant = before.objective.constant
  costs : before.objective.KeptBut (fun index => target (.cost index)) after.objective
  direction : ¬target .direction → after.direction = before.direction
  conflicts : ¬target .conflicts → after.conflicts = before.conflicts

/-- Two models agree in everything outside the target.  Variables and constraints
are also found under the names under which they were found. -/
structure AgreesBut (before after : Model α) : Prop
    extends TablesKept target before after where
  variable_found : ∀ column < before.columnCount, ¬target (.name column) →
    ∀ name, after.variableByName name = some column ↔
      before.variableByName name = some column
  constraint_found : ∀ row < before.rowCount,
    ∀ name, after.constraintByName name = some row ↔
      before.constraintByName name = some row

end Keeping

section Tables

variable {target : Part → Prop} {model middle other : Model α}

theorem KeptVariable.refl (column : Nat) (data : VariableRecord α) :
    KeptVariable target column data data :=
  ⟨fun _ => rfl, fun _ => rfl, fun _ => rfl, fun _ => rfl⟩

theorem KeptVariable.trans {column : Nat} {old new last : VariableRecord α}
    (first : KeptVariable target column old new)
    (second : KeptVariable target column new last) :
    KeptVariable target column old last where
  name outside := (second.name outside).trans (first.name outside)
  lower outside := (second.lower outside).trans (first.lower outside)
  upper outside := (second.upper outside).trans (first.upper outside)
  kind outside := (second.kind outside).trans (first.kind outside)

omit [Scalar α] in
theorem KeptConstraint.of_same {row : Nat} {data : ConstraintRecord α} :
    KeptConstraint target row data data :=
  ⟨rfl, fun _ => rfl, fun _ => rfl, .of_cells rfl⟩

omit [Scalar α] in
theorem KeptConstraint.trans {row : Nat} {old new last : ConstraintRecord α}
    (first : KeptConstraint target row old new)
    (second : KeptConstraint target row new last) :
    KeptConstraint target row old last where
  name := second.name.trans first.name
  relation outside := (second.relation outside).trans (first.relation outside)
  constant outside := (second.constant outside).trans (first.constant outside)
  cells := first.cells.trans second.cells

namespace TablesKept

theorem refl (model : Model α) : TablesKept target model model where
  reference := rfl
  variableHandles := List.prefix_rfl
  constraintHandles := List.prefix_rfl
  variable_kept column old found := ⟨old, found, .refl column old⟩
  constraint_kept _ old found := ⟨old, found, .of_same⟩
  offset _ := rfl
  costs := .of_cells rfl
  direction _ := rfl
  conflicts _ := rfl

theorem trans (first : TablesKept target model middle)
    (second : TablesKept target middle other) : TablesKept target model other where
  reference := second.reference.trans first.reference
  variableHandles := first.variableHandles.trans second.variableHandles
  constraintHandles := first.constraintHandles.trans second.constraintHandles
  variable_kept column old found := by
    obtain ⟨new, middleFound, kept⟩ := first.variable_kept column old found
    obtain ⟨last, lastFound, stillKept⟩ := second.variable_kept column new middleFound
    exact ⟨last, lastFound, kept.trans stillKept⟩
  constraint_kept row old found := by
    obtain ⟨new, middleFound, kept⟩ := first.constraint_kept row old found
    obtain ⟨last, lastFound, stillKept⟩ := second.constraint_kept row new middleFound
    exact ⟨last, lastFound, kept.trans stillKept⟩
  offset outside := (second.offset outside).trans (first.offset outside)
  costs := first.costs.trans second.costs
  direction outside := (second.direction outside).trans (first.direction outside)
  conflicts outside := (second.conflicts outside).trans (first.conflicts outside)

/-- A solution takes no part in this. -/
theorem withoutSolution (kept : TablesKept target model middle) :
    TablesKept target model middle.withoutSolution :=
  ⟨kept.reference, kept.variableHandles, kept.constraintHandles, kept.variable_kept,
    kept.constraint_kept, kept.offset, kept.costs, kept.direction, kept.conflicts⟩

theorem withHandle (kept : TablesKept target model middle) (handle : Option Variable) :
    TablesKept target model (middle.withHandle handle) :=
  { kept with
    variableHandles := kept.variableHandles.trans (List.prefix_append _ _) }

theorem withConstraintHandle (kept : TablesKept target model middle)
    (handle : Option Constraint) :
    TablesKept target model (middle.withConstraintHandle handle) :=
  { kept with
    constraintHandles := kept.constraintHandles.trans (List.prefix_append _ _) }

end TablesKept

/-- What is found after an entry of a table was changed, and what it was before. -/
private theorem exists_modified {β : Type} {index : Index} {change : β → β}
    {table : List β} {position : Nat} {old : β} {kept : β → Prop}
    (found : table[position]? = some old) (same : kept old)
    (changed : index.position? = some position → kept (change old)) :
    ∃ new, (index.modify change table)[position]? = some new ∧ kept new := by
  by_cases named : index.position? = some position
  · refine ⟨change old, ?_, changed named⟩
    have read := Index.get?_modify_self index change table
    simp only [Index.get?, named, found] at read
    exact read
  · refine ⟨old, ?_, same⟩
    have apart : (Index.place position).position? ≠ index.position? :=
      fun equal => named equal.symm
    exact (Index.get?_modify_of_ne apart change table).trans found

theorem tablesKept_withVariable {index : Index}
    {change : VariableRecord α → VariableRecord α}
    (kept : ∀ column data, index.position? = some column →
      KeptVariable target column data (change data)) :
    TablesKept target model (model.withVariable index change) :=
  { TablesKept.refl model with
    variable_kept := fun column old found =>
      exists_modified found (.refl column old) (kept column old) }

theorem tablesKept_withConstraint {index : Index}
    {change : ConstraintRecord α → ConstraintRecord α}
    (kept : ∀ row data, index.position? = some row →
      KeptConstraint target row data (change data)) :
    TablesKept target model (model.withConstraint index change) :=
  { TablesKept.refl model with
    constraint_kept := fun row old found =>
      exists_modified found .of_same (kept row old) }

/-- A column is written entry by entry, each into the row that it names. -/
theorem tablesKept_withEntries {index : Index} {entries : List (Participant × α)}
    (targeted : ∀ entry ∈ entries, ∀ row, entry.1.index.position? = some row →
      target (.cell row index)) :
    TablesKept target model (model.withEntries index entries) := by
  induction entries generalizing model with
  | nil => exact .refl model
  | cons entry rest induction =>
      have first : TablesKept target model (model.withConstraint entry.1.index
          (fun data => { data with row := data.row.insert index entry.2 })) := by
        apply tablesKept_withConstraint
        intro row data named
        have cell := targeted entry List.mem_cons_self row named
        exact ⟨rfl, fun _ => rfl, fun _ => rfl, .insert cell entry.2⟩
      apply first.trans
      apply induction
      intro other membership
      exact targeted other (List.mem_cons_of_mem _ membership)

theorem tablesKept_withoutCells {index : Index}
    (targeted : ∀ row, target (.cell row index)) :
    TablesKept target model (model.withoutCells index) :=
  { TablesKept.refl model with
    constraint_kept := by
      intro row old found
      refine ⟨{ old with row := old.row.remove index }, ?_, ?_⟩
      · simp [withoutCells, found]
      · exact ⟨rfl, fun _ => rfl, fun _ => rfl, .remove (targeted row)⟩ }

theorem tablesKept_withNewVariable {options : VariableOptions α}
    (targeted : target (.cost (.place model.columnCount))) :
    TablesKept target model (model.withNewVariable options) :=
  { TablesKept.refl model with
    variable_kept := by
      intro column old found
      obtain ⟨inside, _⟩ := List.getElem?_eq_some_iff.mp found
      exact ⟨old, (List.getElem?_append_left inside).trans found, .refl column old⟩
    offset := fun _ => rfl
    costs := .insert targeted options.objective }

theorem tablesKept_withNewConstraint {expression : Expression α} {name : String} :
    TablesKept target model (model.withNewConstraint expression name) :=
  { TablesKept.refl model with
    constraint_kept := by
      intro _ old found
      obtain ⟨inside, _⟩ := List.getElem?_eq_some_iff.mp found
      exact ⟨old, (List.getElem?_append_left inside).trans found, .of_same⟩ }

theorem tablesKept_withName {position : Nat} {name : String}
    (targeted : target (.name position)) :
    TablesKept target model (model.withName position name) :=
  { TablesKept.refl model with
    variable_kept := by
      intro column old found
      apply @exists_modified _ (.place position) _ _ _ _ _ found (.refl column old)
      intro named
      cases named
      exact ⟨absurd targeted, fun _ => rfl, fun _ => rfl, fun _ => rfl⟩ }

/-- Only bounds of binary variables are clipped. -/
theorem clipped_of_not_binary {given : StoredKind α} (other : given.isBinary = false)
    (lower upper : α) : clipped given lower upper = (lower, upper) := by
  rw [clipped, other]
  rfl

end Tables

section Writes

variable {model : Model α} {write : Write α} {target : Part → Prop}

/-- A write leaves the tables as they are outside of what it is meant for. -/
theorem tablesKept_onto (covers : ∀ part, write.Targets model part → target part) :
    TablesKept target model (write.onto model) := by
  cases write with
  | newVariable options handle =>
      apply TablesKept.withHandle
      apply TablesKept.withoutSolution
      apply (tablesKept_withNewVariable (covers _ .newCost)).trans
      exact tablesKept_withEntries
        (fun entry listed row named => covers _ (.newCell listed named))
  | newConstraint given wanted handle =>
      exact tablesKept_withNewConstraint.withoutSolution.withConstraintHandle handle
  | objective given =>
      exact { TablesKept.refl model with
        offset := absurd (covers _ .offset)
        costs := ⟨fun _ => absurd (covers _ .objective), fun _ _ => absurd (covers _ .objective)⟩ }
  | direction given =>
      exact { TablesKept.refl model with direction := absurd (covers _ .direction) }
  | name index wanted =>
      simp only [Write.onto]
      cases found : model.variablePosition? index with
      | none => exact .refl model
      | some position =>
          have named := (Option.filter_eq_some_iff.mp found).1
          exact tablesKept_withName (covers _ (.name named))
  | lower index bound =>
      apply TablesKept.withoutSolution
      apply tablesKept_withVariable
      intro column data named
      exact ⟨fun _ => rfl, absurd (covers _ (.lower named)), fun _ => rfl, fun _ => rfl⟩
  | upper index bound =>
      apply TablesKept.withoutSolution
      apply tablesKept_withVariable
      intro column data named
      exact ⟨fun _ => rfl, fun _ => rfl, absurd (covers _ (.upper named)), fun _ => rfl⟩
  | kind index given =>
      apply TablesKept.withoutSolution
      apply tablesKept_withVariable
      intro column data named
      cases binary : given.isBinary with
      | true =>
          exact ⟨fun _ => rfl, absurd (covers _ (.clippedLower named binary)),
            absurd (covers _ (.clippedUpper named binary)), absurd (covers _ (.kind named))⟩
      | false =>
          have clips := clipped_of_not_binary binary data.lower data.upper
          refine ⟨fun _ => rfl, fun _ => ?_, fun _ => ?_, absurd (covers _ (.kind named))⟩
          · exact congrArg Prod.fst clips
          · exact congrArg Prod.snd clips
  | objectiveCoefficient index coefficient =>
      exact { TablesKept.refl model with
        costs := (Row.KeptBut.remove (covers _ .cost)).trans
          (.insert (covers _ .cost) coefficient) }
  | entries index given =>
      apply TablesKept.withoutSolution
      apply (tablesKept_withoutCells (fun _ => covers _ .column)).trans
      exact tablesKept_withEntries (fun _ _ _ _ => covers _ .column)
  | rightHandSide index value =>
      apply TablesKept.withoutSolution
      apply tablesKept_withConstraint
      intro row data named
      exact ⟨rfl, fun _ => rfl, absurd (covers _ (.rightHandSide named)), .of_cells rfl⟩
  | expression index given =>
      apply TablesKept.withoutSolution
      apply tablesKept_withConstraint
      intro row data named
      exact ⟨rfl, absurd (covers _ (.relation named)), absurd (covers _ (.constant named)),
        fun _ => absurd (covers _ (.cells named)), fun _ _ => absurd (covers _ (.cells named))⟩
  | noSolution => exact (TablesKept.refl model).withoutSolution
  | solution status data => exact { TablesKept.refl model with }
  | conflict first second =>
      exact { TablesKept.refl model with conflicts := absurd (covers _ .conflict) }

end Writes

section Runs

variable {target : Part → Prop} {model other : Model α}

/-- In two directories, a position that keeps its name is found alike. -/
private theorem found_congr {count otherCount : Nat} {nameAt otherNameAt : Nat → String}
    {find otherFind : String → Option Nat} (directory : Directory count nameAt find)
    (otherDirectory : Directory otherCount otherNameAt otherFind) {position : Nat}
    (inside : position < count) (stillInside : position < otherCount)
    (same : otherNameAt position = nameAt position) (name : String) :
    otherFind name = some position ↔ find name = some position := by
  rw [directory.found_iff, otherDirectory.found_iff, same]
  simp [inside, stillInside]

/-- Where names are found in both models, the ones that are kept are found where
they were. -/
theorem TablesKept.agreesBut (kept : TablesKept target model other)
    (named : model.Named) (otherNamed : other.Named) : AgreesBut target model other where
  toTablesKept := kept
  variable_found := by
    intro column inside outside
    have found : model.variableTable[column]? = some model.variableTable[column] :=
      List.getElem?_eq_getElem inside
    obtain ⟨new, newFound, same⟩ := kept.variable_kept column _ found
    obtain ⟨stillInside, _⟩ := List.getElem?_eq_some_iff.mp newFound
    apply found_congr (named.columns.directory model.variableName_place)
      (otherNamed.columns.directory other.variableName_place)
    · simpa [columnNames, columnCount] using inside
    · simpa [columnNames] using stillInside
    · rw [variableName_place, variableName_place]
      simp [columnNames, found, newFound, same.name outside]
  constraint_found := by
    intro row inside
    have found : model.constraintTable[row]? = some model.constraintTable[row] :=
      List.getElem?_eq_getElem inside
    obtain ⟨new, newFound, same⟩ := kept.constraint_kept row _ found
    obtain ⟨stillInside, _⟩ := List.getElem?_eq_some_iff.mp newFound
    apply found_congr (named.rows.directory model.constraintName_place)
      (otherNamed.rows.directory other.constraintName_place)
    · simpa [rowNames, rowCount] using inside
    · simpa [rowNames] using stillInside
    · rw [constraintName_place, constraintName_place]
      simp [rowNames, found, newFound, same.name]

/-- In every state: a change that is accepted leaves everything but what it is meant
for, and adds a variable or a constraint only if that is what it is meant for.
Unless it is about a name, a conflict or a solution, it discards the solution. -/
theorem agreesBut_targets (reference : ModelRef) (direction : Direction)
    (changes : List (Change α)) {change : Change α}
    (succeeds : (reached reference direction changes).Succeeds change) :
    let model := reached reference direction changes
    AgreesBut (change.Targets model) model (model.after change) ∧
      (model.after change).columnCount = model.columnCount + change.newColumns ∧
      (model.after change).rowCount = model.rowCount + change.newRows ∧
      (change.loads = false → change.keepsSolution = false →
        (model.after change).Cleared) ∧
      (change.keepsSolution = true → Alike model (model.after change)) := by
  intro model
  have named : model.Named := named_reached reference direction changes
  have stillNamed : (model.after change).Named := by
    obtain ⟨_, step, _⟩ := namesStep_after model change
    exact step.named named
  obtain ⟨write, accepts, written⟩ := exists_write_of_succeeds succeeds
  refine ⟨?agrees, ?columns, ?rows, ?clears, model.alike_after⟩
  case agrees =>
    refine TablesKept.agreesBut ?_ named stillNamed
    rw [written]
    exact tablesKept_onto (fun part targets => ⟨write, accepts, targets⟩)
  case columns =>
    rw [written]
    exact accepts.columnCount_onto
  case rows =>
    rw [written]
    exact accepts.rowCount_onto
  case clears =>
    intro notLoading notKeeping
    rw [written]
    exact accepts.cleared notLoading notKeeping

end Runs

section Columns

private def two : ModelRef := ⟨0, "m"⟩

private def atColumn (position : Nat) : Participant :=
  (two.variable (.place position)).participant

/-- Two variables, of which the sum is at most one. -/
private def paired : List (Change Float) :=
  [.addVariable .missing, .addVariable .missing,
    .storeConstraint {
      terms := ⟨[(.place 0, ⟨atColumn 0, 1⟩), (.place 1, ⟨atColumn 1, 1⟩)], by decide⟩
      constant := -1
      relation := .atMost } "c"]

private def quintupling : Column Float where
  entries := [(({ model := two, index := .place 0 } : Constraint).participant, 5)]
  finite := by decide

/-- Another column for the first variable leaves the cell of the second one. -/
theorem agreesBut_targets_column :
    let model : Model Float := reached two .minimize paired
    let changed := model.after (.setColumn (.place 0) (.column 0 quintupling))
    changed.Cleared ∧ (changed.row (.place 0)).coefficient (.place 0) = 5 ∧
      ∃ old new, model.constraintTable[0]? = some old ∧
        changed.constraintTable[0]? = some new ∧
        new.row.cells.get? (.place 1) = old.row.cells.get? (.place 1) := by
  intro model changed
  have accepts : model.Accepts (.setColumn (.place 0) (.column 0 quintupling))
      (.entries (.place 0) quintupling.entries) := by
    apply Accepts.setColumn rfl
    intro entry membership
    cases List.mem_singleton.mp membership
    decide +kernel
  obtain ⟨agrees, _, _, clears, _⟩ :=
    agreesBut_targets two .minimize paired ⟨_, apply_of_accepts accepts⟩
  have outside : ¬Change.Targets model (.setColumn (.place 0) (.column 0 quintupling))
      (.cell 0 (.place 1)) := by
    rintro ⟨write, accepted, targets⟩
    cases accepted
    cases targets
  have present : 0 < model.constraintTable.length := by decide +kernel
  obtain ⟨new, found, kept⟩ :=
    agrees.constraint_kept 0 _ (List.getElem?_eq_getElem present)
  exact ⟨clears rfl rfl, by decide +kernel, _, new, List.getElem?_eq_getElem present, found,
    kept.cells.cell (.place 1) outside⟩

end Columns

end Model

end LinearProgram
