import LinearProgram.Proofs.Model.Cells

/-!
# Handles and tables

No change takes anything out of a table, and none adds more than one entry to it.  A
handle is only ever appended to those that a model keeps.  So what has a handle
has it for good.

Unless a caller enters something directly, a new entry of a table comes with the
handle of its place.  The handles of a model are then exactly those of the places
of its tables.
-/

namespace LinearProgram

namespace ModelRef

variable {reference : ModelRef} {handles more : List Variable} {index : Index}
  {count : Nat}

/-- The handles of a model for the first so many variables. -/
def firstVariables (reference : ModelRef) (count : Nat) : List Variable :=
  (List.range count).map (fun position => reference.variable (.place position))

/-- The handles of a model for the first so many constraints. -/
def firstConstraints (reference : ModelRef) (count : Nat) : List Constraint :=
  (List.range count).map
    (fun position => { model := reference, index := .place position })

/-- What handles have at an index is the handle of the model for it. -/
def Keeps (reference : ModelRef) (handles : List Variable) (index : Index) : Prop :=
  index.get? handles = some (reference.variable index)

instance decidableKeeps (reference : ModelRef) (handles : List Variable) (index : Index) :
    Decidable (reference.Keeps handles index) :=
  inferInstanceAs (Decidable (_ = _))

@[simp]
theorem length_firstVariables (reference : ModelRef) (count : Nat) :
    (reference.firstVariables count).length = count := by
  simp [firstVariables]

@[simp]
theorem length_firstConstraints (reference : ModelRef) (count : Nat) :
    (reference.firstConstraints count).length = count := by
  simp [firstConstraints]

theorem firstVariables_succ (reference : ModelRef) (count : Nat) :
    reference.firstVariables (count + 1) =
      reference.firstVariables count ++ [reference.variable (.place count)] := by
  simp [firstVariables, List.range_succ]

theorem firstConstraints_succ (reference : ModelRef) (count : Nat) :
    reference.firstConstraints (count + 1) =
      reference.firstConstraints count ++
        [{ model := reference, index := .place count }] := by
  simp [firstConstraints, List.range_succ]

theorem get?_firstVariables (reference : ModelRef) (count position : Nat) :
    (Index.place position).get? (reference.firstVariables count) =
      if position < count then some (reference.variable (.place position)) else none := by
  split
  · rename_i inside
    simp [Index.get?, Index.position?, firstVariables, inside]
  · rename_i outside
    simp [Index.get?, Index.position?, firstVariables, Nat.le_of_not_lt outside]

theorem keeps_firstVariables (reference : ModelRef) {position : Nat}
    (inside : position < count) :
    reference.Keeps (reference.firstVariables count) (.place position) :=
  (reference.get?_firstVariables count position).trans (if_pos inside)

theorem get?_firstConstraints (reference : ModelRef) {position : Nat}
    (inside : position < count) :
    (Index.place position).get? (reference.firstConstraints count) =
      some { model := reference, index := .place position } := by
  simp [Index.get?, Index.position?, firstConstraints, inside]

/-- Further handles do not take the place of earlier ones. -/
theorem Keeps.append (keeps : reference.Keeps handles index)
    (more : List Variable) : reference.Keeps (handles ++ more) index := by
  unfold Keeps Index.get? at keeps
  unfold Keeps Index.get?
  split at keeps
  · obtain ⟨inside, _⟩ := List.getElem?_eq_some_iff.mp keeps
    rw [List.getElem?_append_left inside]
    exact keeps
  · cases keeps

end ModelRef

variable {α : Type} [Scalar α]

/-- The cells of a row over the first variables have the handles of these. -/
theorem Row.Over.keeps {row : Row α} {count : Nat} (spans : row.Over count)
    (reference : ModelRef) :
    row.Within (reference.Keeps (reference.firstVariables count)) := by
  apply (over_iff.mp spans).mono
  rintro index ⟨position, inside, rfl⟩
  exact reference.keeps_firstVariables inside

namespace Model

variable {model : Model α} {change : Change α} {write : Write α}

section Counts

/-- So many variables are new. -/
def Change.newColumns : Change α → Nat
  | addVariable _ | storeVariable _ => 1
  | _ => 0

/-- So many constraints are new. -/
def Change.newRows : Change α → Nat
  | addConstraint _ _ | storeConstraint _ _ => 1
  | _ => 0

theorem rowCount_withConstraint (model : Model α) (index : Index)
    (change : ConstraintRecord α → ConstraintRecord α) :
    (model.withConstraint index change).rowCount = model.rowCount :=
  Index.length_modify index change model.constraintTable

theorem rowCount_withEntries (model : Model α) (index : Index)
    (entries : List (Participant × α)) :
    (model.withEntries index entries).rowCount = model.rowCount := by
  refine @withEntries_keeps _ _ (fun changed => changed.rowCount = model.rowCount)
    index ?_ model rfl entries
  intro changed entry same
  exact (changed.rowCount_withConstraint entry.1.index _).trans same

theorem rowCount_withoutCells (model : Model α) (index : Index) :
    (model.withoutCells index).rowCount = model.rowCount :=
  List.length_map _

theorem Accepts.columnCount_onto (accepts : model.Accepts change write) :
    (write.onto model).columnCount = model.columnCount + change.newColumns := by
  cases accepts with
  | addVariable | storeVariable => exact columnCount_newVariable model _ _
  | setName => exact (alike_name _ _).columnCount
  | setLower | setUpper | setKind | storeLower | storeUpper | storeKind =>
      exact Index.length_modify _ _ model.variableTable
  | _ => rfl

theorem Accepts.rowCount_onto (accepts : model.Accepts change write) :
    (write.onto model).rowCount = model.rowCount + change.newRows := by
  cases accepts with
  | addConstraint | storeConstraint => exact List.length_append
  | addVariable | storeVariable => exact rowCount_withEntries _ _ _
  | setName => exact congrArg List.length (alike_name _ _).constraintTable
  | setColumn =>
      exact (rowCount_withEntries _ _ _).trans (rowCount_withoutCells model _)
  | setRightHandSide | setExpression | storeExpression =>
      exact rowCount_withConstraint model _ _
  | _ => rfl

end Counts

section Growth

/-- The handle of a variable that a write keeps. -/
def Write.handle? : Write α → Option Variable
  | newVariable _ handle => handle
  | _ => none

/-- The handle of a constraint that a write keeps. -/
def Write.constraintHandle? : Write α → Option Constraint
  | newConstraint _ _ handle => handle
  | _ => none

theorem variableHandles_onto (model : Model α) (write : Write α) :
    (write.onto model).variableHandles =
      model.variableHandles ++ write.handle?.toList := by
  cases write with
  | newVariable options handle => rfl
  | name index wanted =>
      simp only [Write.onto, Write.handle?]
      split <;> exact (List.append_nil _).symm
  | _ => exact (List.append_nil _).symm

theorem constraintHandles_onto (model : Model α) (write : Write α) :
    (write.onto model).constraintHandles =
      model.constraintHandles ++ write.constraintHandle?.toList := by
  cases write with
  | newConstraint given wanted handle => rfl
  | name index wanted =>
      simp only [Write.onto, Write.constraintHandle?]
      split <;> exact (List.append_nil _).symm
  | _ => exact (List.append_nil _).symm

/-- A variable that has a handle. -/
def HasHandle (model : Model α) (index : Index) : Prop :=
  model.reference.Keeps model.variableHandles index

instance decidableHasHandle (model : Model α) (index : Index) :
    Decidable (model.HasHandle index) :=
  inferInstanceAs (Decidable (ModelRef.Keeps _ _ _))

theorem HasHandle.onto {index : Index} (has : model.HasHandle index)
    (write : Write α) : (write.onto model).HasHandle index := by
  unfold HasHandle
  rw [variableHandles_onto, reference_onto]
  exact ModelRef.Keeps.append has _

theorem HasHandle.after {index : Index} (has : model.HasHandle index)
    (change : Change α) : (model.after change).HasHandle index := by
  refine @holds_after _ _ model change (fun changed => changed.HasHandle index)
    has ?_ has
  intro write _
  exact has.onto write

end Growth

section Filing

/-- So many handles of variables are new. -/
def Change.newVariableHandles : Change α → Nat
  | addVariable _ => 1
  | _ => 0

/-- So many handles of constraints are new. -/
def Change.newConstraintHandles : Change α → Nat
  | addConstraint _ _ => 1
  | _ => 0

/-- A new handle of a variable is that of the next place. -/
theorem Accepts.firstVariables_onto (accepts : model.Accepts change write) {count : Nat}
    (first : model.variableHandles = model.reference.firstVariables count) :
    (write.onto model).variableHandles =
      (write.onto model).reference.firstVariables (count + change.newVariableHandles) := by
  rw [variableHandles_onto, reference_onto]
  cases accepts with
  | addVariable =>
      have next : model.nextHandle = model.reference.variable (.place count) := by
        rw [nextHandle, handle, first, ModelRef.length_firstVariables]
      rw [Write.handle?, next, first]
      exact (ModelRef.firstVariables_succ _ _).symm
  | _ => exact (List.append_nil _).trans first

/-- A new handle of a constraint is that of the next place. -/
theorem Accepts.firstConstraints_onto (accepts : model.Accepts change write) {count : Nat}
    (first : model.constraintHandles = model.reference.firstConstraints count) :
    (write.onto model).constraintHandles =
      (write.onto model).reference.firstConstraints
        (count + change.newConstraintHandles) := by
  rw [constraintHandles_onto, reference_onto]
  cases accepts with
  | addConstraint =>
      have next : model.nextConstraintHandle =
          { model := model.reference, index := .place count } := by
        rw [nextConstraintHandle, constraintHandle, first,
          ModelRef.length_firstConstraints]
      rw [Write.constraintHandle?, next, first]
      exact (ModelRef.firstConstraints_succ _ _).symm
  | _ => exact (List.append_nil _).trans first

/-- The handles of a model are those of the first places of its tables. -/
structure Filed (model : Model α) : Prop where
  columns : ∃ count ≤ model.columnCount,
    model.variableHandles = model.reference.firstVariables count
  rows : ∃ count ≤ model.rowCount,
    model.constraintHandles = model.reference.firstConstraints count

theorem filed_new (reference : ModelRef) (direction : Direction) :
    (new reference direction : Model α).Filed :=
  ⟨⟨0, Nat.le_refl _, rfl⟩, ⟨0, Nat.le_refl _, rfl⟩⟩

theorem Filed.onto (filed : model.Filed) (accepts : model.Accepts change write) :
    (write.onto model).Filed := by
  obtain ⟨columns, columnsBelow, firstColumns⟩ := filed.columns
  obtain ⟨rows, rowsBelow, firstRows⟩ := filed.rows
  constructor
  · refine ⟨_, ?_, accepts.firstVariables_onto firstColumns⟩
    rw [accepts.columnCount_onto]
    apply Nat.add_le_add columnsBelow
    cases change <;> simp [Change.newVariableHandles, Change.newColumns]
  · refine ⟨_, ?_, accepts.firstConstraints_onto firstRows⟩
    rw [accepts.rowCount_onto]
    apply Nat.add_le_add rowsBelow
    cases change <;> simp [Change.newConstraintHandles, Change.newRows]

theorem Filed.after (filed : model.Filed) (change : Change α) :
    (model.after change).Filed :=
  holds_after filed (fun _ accepts => filed.onto accepts) ⟨filed.columns, filed.rows⟩

/-- What has a handle is in the table. -/
theorem Filed.hasVariable (filed : model.Filed) {index : Index}
    (has : model.HasHandle index) : model.HasVariable index := by
  obtain ⟨count, below, first⟩ := filed.columns
  unfold HasHandle ModelRef.Keeps at has
  rw [first] at has
  obtain ⟨position, inside, same⟩ := List.mem_map.mp (Index.mem_of_get? has)
  have place : Index.place position = index := congrArg Variable.index same
  exact ⟨position, Nat.lt_of_lt_of_le (List.mem_range.mp inside) below, place.symm⟩

/-- A handle that is found at the place of an index is that of the index. -/
theorem Filed.hasHandle (filed : model.Filed) {index : Index} {handle : Variable}
    (settled : index.settled = index)
    (found : index.get? model.variableHandles = some handle) : model.HasHandle index := by
  obtain ⟨count, _, first⟩ := filed.columns
  obtain ⟨position, inside, rfl⟩ := Index.eq_place_of_get? settled found
  unfold HasHandle
  rw [first, ModelRef.length_firstVariables] at inside
  rw [first]
  exact model.reference.keeps_firstVariables inside

end Filing

section Pairs

/-- Whether a change enters a variable or a constraint for which no handle is
kept. -/
def Change.registers : Change α → Bool
  | storeVariable _ | storeConstraint _ _ => true
  | _ => false

theorem Change.registers_of_asks (asks : change.asks = true) :
    change.registers = false := by
  cases change with
  | storeVariable | storeConstraint => cases asks
  | _ => rfl

/-- The handles of a model are those of the places of its tables. -/
structure Paired (model : Model α) : Prop where
  columns : model.variableHandles = model.reference.firstVariables model.columnCount
  rows : model.constraintHandles = model.reference.firstConstraints model.rowCount

namespace Paired

theorem nextHandle (paired : model.Paired) :
    model.nextHandle = model.handle (.place model.columnCount) := by
  rw [Model.nextHandle, paired.columns, ModelRef.length_firstVariables]

theorem variableHandles_newVariable (paired : model.Paired)
    (options : VariableOptions α) :
    ((Write.newVariable options (some model.nextHandle)).onto model).variableHandles =
      model.reference.firstVariables (model.columnCount + 1) := by
  rw [variableHandles_onto, paired.columns, paired.nextHandle]
  exact (ModelRef.firstVariables_succ _ _).symm

/-- The variables in the table are those that have handles. -/
theorem hasHandle (paired : model.Paired) {index : Index}
    (inside : model.HasVariable index) : model.HasHandle index := by
  obtain ⟨position, below, rfl⟩ := inside
  unfold HasHandle
  rw [paired.columns]
  exact model.reference.keeps_firstVariables below

/-- The cells of a row over the table have handles. -/
theorem keeps (paired : model.Paired) {row : Row α} (spans : row.Over model.columnCount) :
    row.Within (model.reference.Keeps model.variableHandles) := by
  rw [paired.columns]
  exact spans.keeps model.reference

theorem constraintHandle? (paired : model.Paired) {row : Nat}
    (inside : row < model.rowCount) :
    model.constraintHandle? (.place row) = some (model.constraintHandle (.place row)) := by
  rw [Model.constraintHandle?, paired.rows]
  exact model.reference.get?_firstConstraints inside

/-- A change that does not enter anything directly keeps a handle for each entry
that it makes. -/
theorem onto (paired : model.Paired) (accepts : model.Accepts change write)
    (keeping : change.registers = false) : (write.onto model).Paired := by
  constructor
  · rw [accepts.firstVariables_onto paired.columns, accepts.columnCount_onto]
    cases change with
    | storeVariable => cases keeping
    | _ => rfl
  · rw [accepts.firstConstraints_onto paired.rows, accepts.rowCount_onto]
    cases change with
    | storeConstraint => cases keeping
    | _ => rfl

theorem after (paired : model.Paired) (keeping : change.registers = false) :
    (model.after change).Paired := by
  refine @holds_after _ _ model change Paired paired ?_ ⟨paired.1, paired.2⟩
  intro write accepts
  exact paired.onto accepts keeping

theorem run (paired : model.Paired) {changes : List (Change α)}
    (keeping : ∀ change ∈ changes, change.registers = false) :
    (model.run changes).Paired := by
  induction changes generalizing model with
  | nil => exact paired
  | cons change later induction =>
      have first := paired.after (keeping change List.mem_cons_self)
      exact induction first (fun other membership =>
        keeping other (List.mem_cons_of_mem _ membership))

end Paired

theorem paired_new (reference : ModelRef) (direction : Direction) :
    (new reference direction : Model α).Paired :=
  ⟨rfl, rfl⟩

theorem paired_reached (reference : ModelRef) (direction : Direction)
    {changes : List (Change α)}
    (keeping : ∀ change ∈ changes, change.registers = false) :
    (reached reference direction changes).Paired :=
  (paired_new reference direction).run keeping

end Pairs

end Model

end LinearProgram
