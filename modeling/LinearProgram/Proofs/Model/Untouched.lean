import LinearProgram.Proofs.Model.Objective

/-!
# What writes leave alone

A constraint is changed by writes that name it, and by writes of a column that
name it or that replace a column in which it has a cell.  Everything else leaves
it as it is, with its name.  The objective is changed only by what is written to
it, and by a new variable that has a part in it.
-/

namespace LinearProgram.Model

variable {α : Type} [Scalar α]

/-- A write that changes the constraint at a position. -/
inductive Write.TouchesRow (model : Model α) (row : Nat) : Write α → Prop
  | rightHandSide {index : Index} {value : α}
      (named : index.position? = some row) :
      TouchesRow model row (.rightHandSide index value)
  | expression {index : Index} {given : Expression α}
      (named : index.position? = some row) :
      TouchesRow model row (.expression index given)
  | occurring {index : Index} {entries : List (Participant × α)}
      (occurs : index ∈ (model.row (.place row)).cells.keys) :
      TouchesRow model row (.entries index entries)
  | entry {index : Index} {entries : List (Participant × α)}
      {entry : Participant × α} (listed : entry ∈ entries)
      (named : entry.1.index.position? = some row) :
      TouchesRow model row (.entries index entries)
  | column {options : VariableOptions α} {handle : Option Variable}
      {entry : Participant × α} (listed : entry ∈ entriesOf options)
      (named : entry.1.index.position? = some row) :
      TouchesRow model row (.newVariable options handle)

/-- A write that changes the objective. -/
inductive Write.TouchesObjective : Write α → Prop
  | objective {given : Expression α} : TouchesObjective (.objective given)
  | coefficient {index : Index} {value : α} :
      TouchesObjective (.objectiveCoefficient index value)
  | newVariable {options : VariableOptions α} {handle : Option Variable}
      (large : Scalar.nearZero options.objective = false) :
      TouchesObjective (.newVariable options handle)

section Constraints

variable {model : Model α} {row : Nat} {data : ConstraintRecord α}

private theorem kept_withConstraint {index : Index}
    (change : ConstraintRecord α → ConstraintRecord α)
    (found : model.constraintTable[row]? = some data)
    (elsewhere : index.position? ≠ some row) :
    (model.withConstraint index change).constraintTable[row]? = some data := by
  have apart : (Index.place row).position? ≠ index.position? :=
    fun same => elsewhere same.symm
  exact (Index.get?_modify_of_ne apart change model.constraintTable).trans found

private theorem kept_withEntries {index : Index}
    {entries : List (Participant × α)}
    (found : model.constraintTable[row]? = some data)
    (elsewhere : ∀ entry ∈ entries, entry.1.index.position? ≠ some row) :
    (model.withEntries index entries).constraintTable[row]? = some data := by
  induction entries generalizing model with
  | nil => exact found
  | cons entry rest induction =>
      have first := kept_withConstraint
        (fun data => { data with row := data.row.insert index entry.2 }) found
        (elsewhere entry List.mem_cons_self)
      apply induction first
      intro other membership
      exact elsewhere other (List.mem_cons_of_mem _ membership)

private theorem kept_withoutCells {index : Index}
    (found : model.constraintTable[row]? = some data)
    (absent : index ∉ data.row.cells.keys) :
    (model.withoutCells index).constraintTable[row]? = some data := by
  have same : data.row.remove index = data.row := by
    rw [Row.remove, OrderedMap.erase_of_not_mem absent]
  simp [withoutCells, found, same]

theorem row_of_found (found : model.constraintTable[row]? = some data) :
    model.row (.place row) = data.row := by
  have read : (Index.place row).get? model.constraintTable = some data := found
  rw [Model.row, read]
  rfl

theorem constraint_kept (found : model.constraintTable[row]? = some data)
    {write : Write α} (untouched : ¬write.TouchesRow model row) :
    (write.onto model).constraintTable[row]? = some data := by
  -- Only columns reach several rows; any other write names the row it changes.
  cases write with
  | newVariable options handle =>
      have start : (model.withNewVariable options).constraintTable[row]? =
          some data := found
      apply kept_withEntries start
      intro entry listed named
      exact untouched (.column listed named)
  | newConstraint given wanted handle =>
      obtain ⟨inside, _⟩ := List.getElem?_eq_some_iff.mp found
      exact (List.getElem?_append_left inside).trans found
  | name index wanted =>
      rw [(alike_name index wanted).constraintTable]
      exact found
  | entries index given =>
      have absent : index ∉ data.row.cells.keys := by
        rw [← row_of_found found]
        exact fun occurs => untouched (.occurring occurs)
      apply kept_withEntries (kept_withoutCells found absent)
      intro entry listed named
      exact untouched (.entry listed named)
  | rightHandSide index value =>
      exact kept_withConstraint _ found
        (fun named => untouched (.rightHandSide named))
  | expression index given =>
      exact kept_withConstraint _ found
        (fun named => untouched (.expression named))
  | _ => exact found

end Constraints

section Objective

variable {model : Model Float} {write : Write Float}

/-- A negligible amount that is new to a row leaves no trace in it. -/
theorem Row.insert_of_negligible {row : Row Float} {index : Index}
    (absent : index ∉ row.cells.keys) {amount : Float}
    (small : Scalar.nearZero amount = true) : row.insert index amount = row := by
  have zero : row.coefficient index = 0 := by
    rw [Row.coefficient, OrderedMap.get?_eq_none_iff.mpr absent,
      Option.getD_none]
  have negligible : Scalar.nearZero (0 + amount) = true := by
    rw [Double.nearZero_zero_add, small]
  rw [Row.insert, zero, if_pos negligible,
    OrderedMap.erase_of_not_mem absent]

/-- An objective over the variables of the table stays as it is unless something
is written to it. -/
theorem objective_kept (spans : model.objective.Over model.columnCount)
    (untouched : ¬write.TouchesObjective) :
    (write.onto model).objective = model.objective := by
  cases write with
  | newVariable options handle =>
      have small : Scalar.nearZero options.objective = true := by
        rw [← Bool.not_eq_false]
        exact fun large => untouched (.newVariable large)
      apply Row.insert_of_negligible _ small
      intro listed
      obtain ⟨cell, membership, same⟩ := List.mem_map.mp listed
      obtain ⟨⟨position, inside, place⟩, _⟩ := spans cell membership
      have equal := Index.place.inj (place.symm.trans same)
      omega
  | name index wanted =>
      simp only [Write.onto]
      split <;> rfl
  | objective given => exact absurd .objective untouched
  | objectiveCoefficient index value => exact absurd .coefficient untouched
  | _ => rfl

end Objective

end LinearProgram.Model
