import LinearProgram.Proofs.Model.Readable

/-!
# Building by columns and by rows

The column of a new variable is added to the rows in one go.  The same can be
done constraint by constraint: its expression is read, a multiple of the variable
is added to that, and the sum is assigned to the constraint.  The second way
leads through expressions, which are built from the row and stored as one again.
Both ways lead to the same model, down to the order of the cells, as long as no
sum overflows on the way.
-/

namespace LinearProgram

section Options

variable {α : Type} [Scalar α]

/-- A record without its column. -/
def Value.withoutColumn : Value α → Value α
  | record members tag =>
    record (members.filter (fun member => member.1 ≠ "column")) tag
  | other => other

namespace Value

variable {options : Value α} {tag : Nat} {column : Column α}

theorem member_withoutColumn (options : Value α) :
    options.withoutColumn.member "column" = .missing := by
  cases options with
  | record members tag =>
      have absent : (members.filter (fun member => member.1 ≠ "column")).find?
          (fun entry => entry.1 == "column") = none := by
        rw [List.find?_eq_none]
        intro member membership
        simpa using (List.mem_filter.mp membership).2
      simp only [withoutColumn, member, member?, absent]
      rfl
  | _ => rfl

theorem member_withoutColumn_of_ne (options : Value α) {name : String}
    (different : name ≠ "column") :
    options.withoutColumn.member name = options.member name := by
  cases options with
  | record members tag =>
      have same : (members.filter (fun member => member.1 ≠ "column")).find?
          (fun entry => entry.1 == name) =
            members.find? (fun entry => entry.1 == name) := by
        rw [List.find?_filter]
        congr 1
        funext member
        by_cases named : member.1 = name
        · simp [named, different]
        · simp [named]
      simp only [withoutColumn, member, member?, same]
  | _ => rfl

/-- Only a record has a column. -/
theorem exists_record (given : options.member "column" = .column tag column) :
    ∃ members label, options = .record members label := by
  cases options with
  | record members label => exact ⟨members, label, rfl⟩
  | _ => cases given

end Value

/-- The column is the last member that is read. -/
private theorem members_withColumn (name : Reading (Option String))
    (lower upper objective : Reading α) (kind : Reading VariableKind)
    (column : Column α) :
    (VariableOptions.mk <$> name <*> lower <*> upper <*> objective <*> kind
        <*> .good (some column)) =
      (fun read : VariableOptions α => { read with column := some column }) <$>
        (VariableOptions.mk <$> name <*> lower <*> upper <*> objective <*> kind
          <*> .good none) := by
  obtain ⟨name, _⟩ := name
  obtain ⟨lower, _⟩ := lower
  obtain ⟨upper, _⟩ := upper
  obtain ⟨objective, _⟩ := objective
  obtain ⟨kind, _⟩ := kind
  cases name <;> cases lower <;> cases upper <;> cases objective <;>
    cases kind <;> rfl

/-- Options with a column are read like those without, apart from the column. -/
theorem VariableOptions.require_withColumn {subject : String} {options : Value α}
    {tag : Nat} {column : Column α}
    (given : options.member "column" = .column tag column) :
    VariableOptions.read.require subject options =
      (VariableOptions.read.require subject options.withoutColumn).map
        (fun read => { read with column := some column }) := by
  have stated : Reader.member "column" Reader.column.optional options =
      .good (some column) := by
    rw [Reader.member, given]
    rfl
  have unstated : Reader.member "column" Reader.column.optional
      options.withoutColumn = (.good none : Reading (Option (Column α))) := by
    rw [Reader.member, Value.member_withoutColumn]
    rfl
  have same : ∀ {β : Type} (reader : Reader α β) {name : String},
      name ≠ "column" → Reader.member name reader options.withoutColumn =
        Reader.member name reader options := by
    intro β reader name different
    rw [Reader.member, Reader.member, options.member_withoutColumn_of_ne different]
  obtain ⟨members, label, rfl⟩ := Value.exists_record given
  have isRecord : (Value.record members label).optionType = "object" := rfl
  have staysRecord :
      (Value.record members label).withoutColumn.optionType = "object" := rfl
  simp only [Reader.require, Reader.requireFor, VariableOptions.read, Reader.object]
  rw [if_pos isRecord, if_pos staysRecord, stated, unstated, same _ (by decide),
    same _ (by decide), same _ (by decide), same _ (by decide),
    same _ (by decide), members_withColumn]
  apply Reading.conclude_satisfying_map
  exact fun _ => rfl

end Options

/-- A multiple of a variable can be added to an expression that is read off a
row, and the sum is stored as the row after an insertion. -/
theorem Row.exists_added {stored : Row Float} (reckon : Reckoning Float)
    {handle : Variable} {reference : ModelRef} {handles : List Variable}
    {relation : Relation} {expression : Expression Float}
    (read : stored.toExpression handles relation = .ok expression)
    (reads : stored.ReadAs reference expression) (own : handle.model = reference)
    {amount : Float} (finite : Scalar.isFinite amount = true)
    (sum : Scalar.isFinite (stored.coefficient handle.index + amount) = true) :
    ∃ changed,
      expression.after ((Expression.Edit.addVariable (.handle handle)
        (.number amount)).apply reckon) = .ok changed ∧
      changed.relation = relation ∧
      changed.Over (fun other => other.owner = .model reference) ∧
      Row.ofExpression changed = stored.insert handle.index amount := by
  have owner : handle.participant.owner = .model reference :=
    congrArg Owner.model own
  have coefficient : expression.terms.coefficient handle.index =
      stored.coefficient handle.index := by
    rw [← Expression.coefficient_contents, reads.contents_eq]
  obtain ⟨terms, added⟩ : ∃ terms,
      expression.terms.add handle.participant amount = .ok terms := by
    refine ⟨_, Terms.add_eq_ok_iff.mpr ⟨?_, finite, ?_, rfl⟩⟩
    · rw [owner]
      exact Terms.accepts_owner reads.over
    · change Scalar.isFinite (expression.terms.coefficient handle.index + _) = true
      rw [coefficient]
      exact sum
  have written : Expression.addTerm handle.participant amount expression =
      .ok () { expression with terms } := by
    refine (Update.bind_of_ok rfl).trans ?_
    exact Update.bind_of_check added
  have applied : (Expression.Edit.addVariable (.handle handle)
      (.number amount)).apply reckon expression =
        .ok () { expression with terms } := by
    refine (Update.bind_of_check (if_pos finite)).trans ?_
    exact (Update.bind_of_check rfl).trans written
  have sound : expression.Sound (fun _ => True) :=
    Expression.toExpression_sound (fun _ _ _ _ => trivial) read
  refine ⟨{ expression with terms }, ?_, ?_, ?_, ?_⟩
  · simp only [Expression.after, applied]
  · exact (Row.parts_of_toExpression read).2
  · exact Terms.Over.add reads.over owner added
  · rw [Row.ofExpression_eq_contents
      (Expression.addTerm_sound sound trivial written),
      Expression.contents_addTerm written, reads.contents_eq]
    rfl

/-- No sum overflows while amounts are added to a coefficient, one after the
other. -/
def Row.SumsFinite {α : Type} [Scalar α] : α → List α → Prop
  | _, [] => True
  | start, amount :: rest =>
    Scalar.isFinite (start + amount) = true ∧ SumsFinite (kept (start + amount)) rest

instance Row.decidableSumsFinite {α : Type} [Scalar α] :
    (start : α) → (amounts : List α) → Decidable (Row.SumsFinite start amounts)
  | _, [] => inferInstanceAs (Decidable True)
  | start, amount :: rest =>
    have := decidableSumsFinite (kept (start + amount)) rest
    inferInstanceAs (Decidable (_ ∧ _))

namespace Model

section Programs

variable {α : Type} [Scalar α]

/-- Add a multiple of a variable to a constraint: read its expression, change
that in place, and assign it. -/
def addToConstraint (reckon : Reckoning α) (handle : Variable)
    (entry : Participant × α) : ModelUpdate α Unit := do
  let expression ← (← get).constraintExpression entry.1.index
  let changed ← expression.after
    ((Expression.Edit.addVariable (.handle handle) (.number entry.2)).apply reckon)
  setExpression entry.1.index changed

/-- Add a variable, and then its coefficients constraint by constraint. -/
def addVariableByRows (reckon : Reckoning α) (options : Value α)
    (entries : List (Participant × α)) : ModelUpdate α Variable := do
  let handle ← addVariable options
  entries.forM (addToConstraint reckon handle)
  return handle

/-- A handle of a constraint in the table. -/
def HasConstraint (model : Model α) (participant : Participant) : Prop :=
  participant.owner = .model model.reference ∧
    ∃ row < model.rowCount, participant.index = .place row

end Programs

theorem related_reached {reference : ModelRef} {direction : Direction}
    {changes : List (Change Float)}
    (asking : ∀ change ∈ changes, change.asks = true) :
    (reached reference direction changes).Related := by
  have asks : Throughout reference direction changes
      (fun _ change => change.asks = true) :=
    throughout_of_forall (fun _ => asking)
  apply asks.invariant
  · intro model change asks related
    exact related.after asks
  · exact nofun

section Step

variable {model : Model Float} {handle : Variable} {entry : Participant × Float}

/-- What has a handle of a constraint in the table is listed there. -/
theorem HasConstraint.listed {participant : Participant}
    (known : model.HasConstraint participant) :
    participant.owner = .model model.reference ∧
      model.ListsConstraint participant.index := by
  obtain ⟨owner, row, present, place⟩ := known
  rw [place]
  exact ⟨owner, listsConstraint_place present⟩

theorem owns_of_over {expression : Expression Float}
    (owned : expression.Over (fun other => other.owner = .model model.reference)) :
    model.Owns expression := by
  intro owner stated
  have oldest := (Option.filter_eq_some_iff.mp stated).1
  rw [Terms.owner?, OrderedMap.first?, OrderedMap.values, List.head?_map,
    Option.map_map, Option.map_eq_some_iff] at oldest
  obtain ⟨entry, first, rfl⟩ := oldest
  exact owned entry (List.mem_of_head? first)

/-- Adding to a constraint writes into its row, as a column does. -/
theorem addToConstraint_eq (reckon : Reckoning Float)
    (rows : model.RowsWithin model.HasHandle) (finite : model.RowsFinite)
    (related : model.Related) (own : handle.model = model.reference)
    (known : model.HasConstraint entry.1)
    (amount : Scalar.isFinite entry.2 = true)
    (sum : Scalar.isFinite ((model.row entry.1.index).coefficient handle.index +
      entry.2) = true) :
    addToConstraint reckon handle entry model =
      .ok () (model.withEntries handle.index [entry]).withoutSolution := by
  obtain ⟨_, row, present, place⟩ := known
  have within := row_of_forall (fun row => row.Within model.HasHandle) rows
    (Row.within_empty 0 _) (.place row)
  obtain ⟨expression, read, reads⟩ := Row.exists_readAs within
    (finite row present).cells (finite row present).constant
    (model.relation (.place row))
  rw [place] at sum
  obtain ⟨changed, added, relation, owned, stored⟩ :=
    Row.exists_added reckon read reads own amount sum
  have accepted : model.Accepts (.setExpression (.place row) changed)
      (.expression (.place row) changed) := by
    refine .setExpression ?_ (owns_of_over owned) (listsConstraint_place present)
    rw [relation, relation_place present]
    exact related _ (List.getElem_mem present)
  rw [← constraintExpression_eq (listsConstraint_place present)] at read
  refine (Update.bind_of_ok rfl).trans ?_
  rw [place]
  refine (Update.bind_of_check read).trans ?_
  refine (Update.bind_of_check added).trans ?_
  refine (apply_of_accepts accepted).trans ?_
  -- Name and relation stay, so the row is all that is written.
  have same : model.withConstraint (.place row) (fun data =>
      { data with
        row := Row.ofExpression changed
        relation := changed.relation }) = model.withEntries handle.index [entry] := by
    simp only [withConstraint, withEntries, List.foldl_cons, List.foldl_nil, place]
    congr 1
    apply Index.modify_congr
    intro data found
    rw [stored, relation]
    simp [Model.row, Model.relation, found]
  exact congrArg (fun changed => EStateM.Result.ok () (withoutSolution changed)) same

end Step

section Entries

variable {model : Model Float} {handles : List Variable} {index : Index}
  {entry : Participant × Float} {entries : List (Participant × Float)}

/-- Entries that can be added one by one, where there are such handles: they are of
constraints in the table, all cells have handles, and no number is infinite or
undefined, not even on the way. -/
structure Addable (model : Model Float) (handles : List Variable) (index : Index)
    (entries : List (Participant × Float)) : Prop where
  rows : model.RowsWithin (model.reference.Keeps handles)
  finite : model.RowsFinite
  related : model.Related
  known : ∀ entry ∈ entries, model.HasConstraint entry.1
  amounts : ∀ entry ∈ entries, Scalar.isFinite entry.2 = true
  sums : ∀ row < model.rowCount,
    Row.SumsFinite ((model.row (.place row)).coefficient index)
      (amountsAt row entries)

namespace Addable

theorem sum (addable : model.Addable handles index (entry :: entries)) {row : Nat}
    (present : row < model.rowCount) (place : entry.1.index = .place row) :
    Scalar.isFinite ((model.row (.place row)).coefficient index + entry.2) =
      true := by
  have sums := addable.sums row present
  rw [amountsAt, List.filter_cons_of_pos (by simp [place, Index.position?])] at sums
  exact sums.1

theorem rowsFinite_step (addable : model.Addable handles index (entry :: entries)) :
    (model.withEntries index [entry]).RowsFinite := by
  apply (addable.finite.withConstraint_iff (fun row => row.insert index entry.2)
    (fun _ => rfl)).mpr
  intro row present addressed
  obtain ⟨_, other, _, place⟩ := addable.known entry List.mem_cons_self
  have same : other = row := by
    rw [place] at addressed
    exact Option.some.inj addressed
  subst same
  have finite := addable.finite other present
  refine ⟨?_, finite.constant⟩
  apply (Row.finiteCells_insertAll_iff finite.cells index [entry.2]).mpr
  exact Row.isFinite_kept (addable.sum present place)

/-- What is left can be added after the first entry was. -/
theorem step (addable : model.Addable handles index (entry :: entries))
    (keeps : model.reference.Keeps handles index) :
    (model.withEntries index [entry]).Addable handles index entries where
  rows := addable.rows.withEntries keeps [entry]
  finite := addable.rowsFinite_step
  related := addable.related.withEntries index [entry]
  known := by
    intro other membership
    obtain ⟨owner, row, present, place⟩ :=
      addable.known other (List.mem_cons_of_mem _ membership)
    refine ⟨owner, row, ?_, place⟩
    rw [rowCount_withEntries]
    exact present
  amounts := fun other membership =>
    addable.amounts other (List.mem_cons_of_mem _ membership)
  sums := by
    intro row present
    rw [rowCount_withEntries] at present
    have sums := addable.sums row present
    rw [row_withEntries index [entry] present, Row.coefficient_insertAll_self]
    by_cases addressed : entry.1.index.position? = some row
    · simp only [amountsAt, addressed, List.filter_cons, decide_true, if_true,
        List.map_cons] at sums ⊢
      exact sums.2
    · simpa [amountsAt, addressed, Row.accumulated] using sums

end Addable

/-- Constraint by constraint, the entries of a column are written as the column
is. -/
theorem forM_addToConstraint_eq (reckon : Reckoning Float) (handle : Variable)
    (addable : model.Addable model.variableHandles handle.index entries)
    (own : handle.model = model.reference) (has : model.HasHandle handle.index)
    (cleared : model.withoutSolution = model) :
    entries.forM (addToConstraint reckon handle) model =
      .ok () (model.withEntries handle.index entries) := by
  induction entries generalizing model with
  | nil => rfl
  | cons entry rest induction =>
      have known := addable.known entry List.mem_cons_self
      obtain ⟨row, present, place⟩ := known.2
      have sum := addable.sum present place
      rw [← place] at sum
      have first := addToConstraint_eq reckon addable.rows addable.finite
        addable.related own known (addable.amounts entry List.mem_cons_self) sum
      have stillCleared : (model.withEntries handle.index [entry]).withoutSolution =
          model.withEntries handle.index [entry] :=
        congrArg (fun changed => changed.withEntries handle.index [entry]) cleared
      rw [stillCleared] at first
      refine (Update.bind_of_ok first).trans ?_
      exact induction (addable.step has) own has stillCleared

end Entries

section Columns

variable {model : Model Float} {options : Value Float} {tag : Nat}
  {column : Column Float}

theorem addVariable_of_refused {given : Value Float} {error : Error Float}
    (refused : VariableOptions.read.require "variable options"
      (given.orElse .noOptions) = .error error) :
    addVariable given model = .error error model :=
  Update.bind_of_refused refused

theorem addVariable_of_unordered {given : Value Float}
    {read : VariableOptions Float} {least greatest : Float} {error : Error Float}
    (accepted : VariableOptions.read.require "variable options"
      (given.orElse .noOptions) = .ok read)
    (clips : clipped (.listed read.kind) read.lower read.upper =
      (least, greatest))
    (refused : requireBinaryBounds read.kind least greatest "variable options" =
      .error error) : addVariable given model = .error error model := by
  refine (Update.bind_of_check accepted).trans ?_
  rw [clips]
  exact Update.bind_of_refused refused

theorem column_of_withoutColumn {subject : String} {read : VariableOptions Float}
    (accepted : VariableOptions.read.require subject options.withoutColumn =
      .ok read) : read.column = none := by
  have gives := (VariableOptions.readFrom_of_require accepted).column
  have listed := Reading.gives_within_iff.mp gives
  rw [Value.member_withoutColumn] at listed
  exact (Option.some.inj listed.1).symm

/-- A new variable without a column leaves the rows as they are. -/
theorem Addable.withNewVariable {handles : List Variable} {index : Index}
    {entries : List (Participant × Float)}
    (addable : model.Addable handles index entries) {read : VariableOptions Float}
    (none : read.column = none) (handle : Option Variable) :
    ((Write.newVariable read handle).onto model).Addable handles index entries := by
  obtain ⟨name, lower, upper, objective, kind, _⟩ := read
  cases none
  exact ⟨addable.rows, addable.finite, addable.related, addable.known,
    addable.amounts, addable.sums⟩

theorem withoutSolution_newVariable (model : Model Float)
    (read : VariableOptions Float) (handle : Option Variable) :
    ((Write.newVariable read handle).onto model).withoutSolution =
      (Write.newVariable read handle).onto model :=
  rfl

/-- The next variable has a handle once it was added. -/
theorem hasHandle_newVariable (paired : model.Paired) (read : VariableOptions Float) :
    ((Write.newVariable read (some model.nextHandle)).onto model).HasHandle
      (.place model.columnCount) := by
  unfold HasHandle
  rw [paired.variableHandles_newVariable]
  exact ModelRef.keeps_firstVariables _ (Nat.lt_succ_self _)

/-- A column is written after the rest of a variable. -/
theorem onto_newVariable (model : Model Float) {read : VariableOptions Float}
    (none : read.column = none) (column : Column Float) (handle : Option Variable) :
    (Write.newVariable { read with column := some column } handle).onto model =
      ((Write.newVariable read handle).onto model).withEntries
        (.place model.columnCount) column.entries := by
  obtain ⟨name, lower, upper, objective, kind, _⟩ := read
  cases none
  rfl

/-- After options were accepted, the entries of their column are written at once
or one by one. -/
theorem addVariable_eq_of_read (reckon : Reckoning Float) {rest : Value Float}
    {read : VariableOptions Float} (none : read.column = none)
    (accepted : VariableOptions.read.require "variable options"
      (rest.orElse .noOptions) = .ok read)
    (withColumn : VariableOptions.read.require "variable options"
      (options.orElse .noOptions) = .ok { read with column := some column })
    (paired : model.Paired)
    (addable : model.Addable (model.reference.firstVariables (model.columnCount + 1))
      (.place model.columnCount) column.entries) :
    addVariable options model =
      addVariableByRows reckon rest column.entries model := by
  obtain ⟨⟨least, greatest⟩, clips⟩ : ∃ bounds,
      clipped (.listed read.kind) read.lower read.upper = bounds := ⟨_, rfl⟩
  cases ordered : requireBinaryBounds read.kind least greatest
      "variable options" with
  | error error =>
      rw [addVariableByRows, Update.bind_of_error
        (addVariable_of_unordered accepted clips ordered)]
      exact addVariable_of_unordered withColumn clips ordered
  | ok _ =>
      have listed : model.ListsEntries column.entries :=
        fun entry membership => (addable.known entry membership).listed
      have nothing : entriesOf read = [] := by
        rw [entriesOf, none]
        rfl
      have nobody : model.ListsEntries (entriesOf read) := by
        intro entry membership
        rw [nothing] at membership
        cases membership
      have still : ({ read with lower := least, upper := greatest } :
          VariableOptions Float).column = .none := none
      have columns := addVariable_eq withColumn clips ordered listed
      have start := addVariable_eq accepted clips ordered nobody
      have afterwards := addable.withNewVariable still (some model.nextHandle)
      rw [← paired.variableHandles_newVariable] at afterwards
      have rows := forM_addToConstraint_eq reckon
        (model.handle (.place model.columnCount)) afterwards rfl
        (hasHandle_newVariable paired _) (withoutSolution_newVariable model _ _)
      rw [paired.nextHandle] at columns start rows
      rw [columns, addVariableByRows, Update.bind_of_ok start,
        Update.bind_of_ok rows]
      exact congrArg (EStateM.Result.ok _) (onto_newVariable model still column _)

/-- A column can be given with a variable, or be added constraint by constraint
afterwards. -/
theorem addVariable_eq_of_addable (reckon : Reckoning Float)
    (given : options.member "column" = .column tag column) (paired : model.Paired)
    (addable : model.Addable (model.reference.firstVariables (model.columnCount + 1))
      (.place model.columnCount) column.entries) :
    addVariable options model =
      addVariableByRows reckon options.withoutColumn column.entries model := by
  obtain ⟨members, label, record⟩ := Value.exists_record given
  have stated : options.orElse .noOptions = options := by
    rw [record]
    rfl
  have unstated : options.withoutColumn.orElse .noOptions =
      options.withoutColumn := by
    rw [record]
    rfl
  have withColumn : VariableOptions.read.require "variable options" options = _ :=
    VariableOptions.require_withColumn given
  cases accepted : VariableOptions.read.require "variable options"
      options.withoutColumn with
  | error error =>
      rw [accepted] at withColumn
      rw [← stated] at withColumn
      rw [← unstated] at accepted
      rw [addVariableByRows, Update.bind_of_error (addVariable_of_refused accepted)]
      exact addVariable_of_refused withColumn
  | ok read =>
      have none := column_of_withoutColumn accepted
      rw [accepted, ← stated] at withColumn
      rw [← unstated] at accepted
      exact addVariable_eq_of_read reckon none accepted withColumn paired addable

/-- In every state that changes with their checks lead to, and in which all rows
are finite and over the table or the next variable, a column of its constraints can be
given with a variable, or be added constraint by constraint afterwards.  The outcome is
the same, the cells and their order included, as long as no sum overflows on the
way. -/
theorem addVariable_eq_byRows {reference : ModelRef} {direction : Direction}
    {changes : List (Change Float)}
    (asking : ∀ change ∈ changes, change.asks = true)
    (inRange : ∀ data ∈ (reached reference direction changes).constraintTable,
      data.row.Over ((reached reference direction changes).columnCount + 1))
    (finite : (reached reference direction changes).RowsFinite)
    (reckon : Reckoning Float)
    (given : options.member "column" = .column tag column)
    (known : ∀ entry ∈ column.entries,
      (reached reference direction changes).HasConstraint entry.1)
    (sums : ∀ row < (reached reference direction changes).rowCount,
      Row.SumsFinite
        (((reached reference direction changes).row (.place row)).coefficient
          (.place (reached reference direction changes).columnCount))
        (amountsAt row column.entries)) :
    addVariable options (reached reference direction changes) =
      addVariableByRows reckon options.withoutColumn column.entries
        (reached reference direction changes) := by
  have paired := paired_reached reference direction
    (fun change membership => Change.registers_of_asks (asking change membership))
  apply addVariable_eq_of_addable reckon given paired
  exact {
    rows := fun data membership => (inRange data membership).keeps _
    finite := finite
    related := related_reached asking
    known := known
    amounts := column.finite
    sums := sums }

end Columns

section Cancelling

private def cancelledVariable (position : Nat) : Participant :=
  (ModelRef.variable ⟨0, "m"⟩ (.place position)).participant

private def cancelledConstraint (position : Nat) : Participant :=
  Constraint.participant { model := ⟨0, "m"⟩, index := .place position }

/-- A handle of the second variable, which there is not yet, comes first. -/
private def foresighted : Expression Float where
  terms := ⟨[(.place 1, ⟨cancelledVariable 1, 1⟩),
    (.place 0, ⟨cancelledVariable 0, 1⟩)], by simp⟩
  constant := -1
  relation := .atMost

private def foresight : List (Change Float) :=
  [.addVariable .missing, .addConstraint foresighted "", .addConstraint foresighted ""]

private def cancelling : Column Float :=
  ⟨[(cancelledConstraint 0, -1), (cancelledConstraint 1, 2),
    (cancelledConstraint 0, 0.5)], by decide⟩

private def cancellingOptions : Value Float :=
  .record [("ub", .number 1), ("column", .column 0 cancelling)] 0

/-- The cell of the new variable cancels out and comes back at the end. -/
theorem addVariable_eq_byRows_cancelling :
    addVariable cancellingOptions (reached ⟨0, "m"⟩ .minimize foresight) =
        addVariableByRows (fun _ => .ok 0) cancellingOptions.withoutColumn
          cancelling.entries (reached ⟨0, "m"⟩ .minimize foresight) ∧
      ((reached ⟨0, "m"⟩ .minimize (foresight ++ [.addVariable cancellingOptions])).row
        (.place 0)).cells.toList = [(.place 0, 1), (.place 1, 0.5)] := by
  refine ⟨addVariable_eq_byRows (by decide) ?inRange ?finite _ rfl ?known
    (by decide +kernel), by decide +kernel⟩
  case inRange =>
    simp only [Row.Over]
    decide +kernel
  case finite =>
    intro row present
    have two : (reached ⟨0, "m"⟩ .minimize foresight).rowCount = 2 := by
      decide +kernel
    rw [two] at present
    have cells : ∀ row < 2, ∀ cell ∈ ((reached ⟨0, "m"⟩ .minimize foresight).row
        (.place row)).cells.toList, Scalar.isFinite cell.2 = true := by
      decide +kernel
    have constants : ∀ row < 2, Scalar.isFinite ((reached ⟨0, "m"⟩ .minimize
        foresight).row (.place row)).constant = true := by
      decide +kernel
    exact ⟨cells row present, constants row present⟩
  case known =>
    simp only [HasConstraint]
    decide +kernel

end Cancelling

end Model

end LinearProgram
