import LinearProgram.Proofs.Expression.Contents
import LinearProgram.Proofs.Model.Matrix

/-!
# Coefficients after a write

A write adds to one coefficient of a row.  A sum that is nearly zero empties the
cell, and then counts as zero; no other coefficient changes, nor does the
constant.  A column is written entry by entry, so what a row has of it afterwards
is a running sum of the amounts that the column has for this row.
-/

namespace LinearProgram

namespace Row

section Cells

variable {α : Type} [Scalar α]

/-- What a cell has of a sum: nothing if the sum is nearly zero. -/
def kept (sum : α) : α := if Scalar.nearZero sum then 0 else sum

/-- The coefficient to which amounts add up, one after the other. -/
def accumulated (start : α) (amounts : List α) : α :=
  amounts.foldl (fun sum amount => kept (sum + amount)) start

/-- The row after amounts were added to one of its cells. -/
def insertAll (row : Row α) (index : Index) (amounts : List α) : Row α :=
  amounts.foldl (fun row amount => row.insert index amount) row

theorem insert_of_small {row : Row α} {index : Index} {amount : α}
    (small : Scalar.nearZero (row.coefficient index + amount) = true) :
    row.insert index amount = row.remove index := by
  rw [insert, if_pos small, remove]

theorem insert_of_large {row : Row α} {index : Index} {amount : α}
    (large : ¬Scalar.nearZero (row.coefficient index + amount) = true) :
    row.insert index amount = { row with
      cells := row.cells.insert index (row.coefficient index + amount) } := by
  rw [insert, if_neg large]

@[simp]
theorem coefficient_remove_self (row : Row α) (index : Index) :
    (row.remove index).coefficient index = 0 := by
  rw [remove, coefficient, OrderedMap.get?_erase, if_pos rfl, Option.getD_none]

theorem coefficient_remove_of_ne (row : Row α) {index other : Index}
    (different : other ≠ index) :
    (row.remove index).coefficient other = row.coefficient other := by
  rw [remove, coefficient, OrderedMap.get?_erase, if_neg different, coefficient]

@[simp]
theorem coefficient_insert_self (row : Row α) (index : Index) (amount : α) :
    (row.insert index amount).coefficient index =
      kept (row.coefficient index + amount) := by
  by_cases small : Scalar.nearZero (row.coefficient index + amount) = true
  · rw [kept, if_pos small, insert_of_small small, coefficient_remove_self]
  · rw [kept, if_neg small, insert_of_large small, coefficient,
      OrderedMap.get?_insert, if_pos rfl, Option.getD_some]

theorem coefficient_insert_of_ne (row : Row α) {index other : Index}
    (different : other ≠ index) (amount : α) :
    (row.insert index amount).coefficient other = row.coefficient other := by
  by_cases small : Scalar.nearZero (row.coefficient index + amount) = true
  · rw [insert_of_small small, coefficient_remove_of_ne row different]
  · rw [insert_of_large small, coefficient, OrderedMap.get?_insert,
      if_neg different, coefficient]

theorem coefficient_insertAll_self (row : Row α) (index : Index)
    (amounts : List α) :
    (row.insertAll index amounts).coefficient index =
      accumulated (row.coefficient index) amounts := by
  induction amounts generalizing row with
  | nil => rfl
  | cons amount rest induction =>
      exact (induction _).trans (by rw [coefficient_insert_self]; rfl)

theorem coefficient_insertAll_of_ne (row : Row α) {index other : Index}
    (different : other ≠ index) (amounts : List α) :
    (row.insertAll index amounts).coefficient other =
      row.coefficient other := by
  induction amounts generalizing row with
  | nil => rfl
  | cons amount rest induction =>
      exact (induction _).trans (row.coefficient_insert_of_ne different amount)

theorem constant_insertAll (row : Row α) (index : Index) (amounts : List α) :
    (row.insertAll index amounts).constant = row.constant := by
  induction amounts generalizing row with
  | nil => rfl
  | cons amount rest induction => exact induction _

theorem coefficient_of_absent {row : Row α} {index : Index}
    (absent : index ∉ row.cells.keys) : row.coefficient index = 0 := by
  rw [coefficient, OrderedMap.get?_eq_none_iff.mpr absent, Option.getD_none]

/-- A row over the first variables has nothing of the next one. -/
theorem Over.coefficient_next {row : Row α} {count : Nat}
    (spans : row.Over count) : row.coefficient (.place count) = 0 := by
  apply coefficient_of_absent
  intro listed
  obtain ⟨cell, membership, same⟩ := List.mem_map.mp listed
  obtain ⟨⟨position, inside, place⟩, _⟩ := spans cell membership
  have equal : position = count := Index.place.inj (place.symm.trans same)
  omega

end Cells

section Finite

variable {row : Row Float}

/-- The numbers in the cells are finite exactly if all coefficients are, because
zero is. -/
theorem finiteCells_iff : row.FiniteCells ↔
    ∀ index, Scalar.isFinite (row.coefficient index) = true := by
  constructor
  · exact fun finite => finite.coefficient
  · intro finite cell membership
    have found := OrderedMap.get?_eq_some_iff.mpr membership
    have listed := finite cell.1
    rw [coefficient, found, Option.getD_some] at listed
    exact listed

/-- Whether the cells stay finite is decided by the one that is written. -/
theorem finiteCells_insertAll_iff (finite : row.FiniteCells) (index : Index)
    (amounts : List Float) :
    (row.insertAll index amounts).FiniteCells ↔
      Scalar.isFinite (accumulated (row.coefficient index) amounts) = true := by
  rw [finiteCells_iff]
  constructor
  · intro all
    rw [← coefficient_insertAll_self]
    exact all index
  · intro written other
    by_cases same : other = index
    · rw [same, coefficient_insertAll_self]
      exact written
    · rw [coefficient_insertAll_of_ne row same]
      exact finite.coefficient other

theorem FiniteCells.remove (finite : row.FiniteCells) (index : Index) :
    (row.remove index).FiniteCells := by
  intro cell membership
  exact finite cell (OrderedMap.mem_erase_iff.mp membership).2

theorem isFinite_kept {sum : Float} (finite : Scalar.isFinite sum = true) :
    Scalar.isFinite (kept sum) = true := by
  unfold kept
  split
  · exact LawfulScalar.isFinite_zero
  · exact finite

/-- A finite amount can be written where nothing was before. -/
theorem FiniteCells.insert (finite : row.FiniteCells) {index : Index}
    (empty : row.coefficient index = 0) {amount : Float}
    (amountFinite : Scalar.isFinite amount = true) :
    (row.insert index amount).FiniteCells := by
  refine (finiteCells_insertAll_iff finite index [amount]).mpr ?_
  apply isFinite_kept
  rw [empty]
  exact Double.isFinite_zero_add amountFinite

end Finite

section Expressions

variable {α : Type} [Scalar α] [NeutralZero α] {expression : Expression α}
  {admitted : Variable → Prop}

theorem finiteCells_ofExpression (sound : Expression.Sound admitted expression) :
    (ofExpression expression).FiniteCells := by
  intro cell membership
  rw [ofExpression_eq_contents sound] at membership
  obtain ⟨entry, present, rfl⟩ := List.mem_map.mp membership
  exact sound.terms.finite entry present

end Expressions

end Row

namespace Model

section Rows

variable {α : Type} [Scalar α] {model : Model α}

/-- The amounts that entries have for the constraint at a position, in order. -/
def amountsAt (row : Nat) (entries : List (Participant × α)) : List α :=
  (entries.filter (fun entry => entry.1.index.position? = some row)).map Prod.snd

/-- A constraint that is changed is one row of the table. -/
theorem row_withConstraint (model : Model α) (index : Index)
    {change : ConstraintRecord α → ConstraintRecord α} (write : Row α → Row α)
    (writes : ∀ data, (change data).row = write data.row) {row : Nat}
    (present : row < model.rowCount) :
    (model.withConstraint index change).row (.place row) =
      if index.position? = some row then write (model.row (.place row))
      else model.row (.place row) := by
  have found : (Index.place row).get? model.constraintTable =
      some model.constraintTable[row] := List.getElem?_eq_getElem present
  by_cases addressed : index.position? = some row
  · have same : ∀ table : List (ConstraintRecord α),
        (Index.place row).get? table = index.get? table := by
      intro table
      simp only [Index.get?, addressed]
      rfl
    rw [if_pos addressed, Model.row, Model.row, withConstraint, same,
      Index.get?_modify_self, ← same, found]
    exact writes _
  · have apart : (Index.place row).position? ≠ index.position? :=
      fun same => addressed same.symm
    rw [if_neg addressed, Model.row, withConstraint,
      Index.get?_modify_of_ne apart, Model.row]

theorem row_withEntries (index : Index) {row : Nat} :
    ∀ (entries : List (Participant × α)) {model : Model α},
      row < model.rowCount →
      (model.withEntries index entries).row (.place row) =
        (model.row (.place row)).insertAll index (amountsAt row entries)
  | [], _, _ => rfl
  | entry :: rest, model, present => by
      let change : ConstraintRecord α → ConstraintRecord α :=
        fun data => { data with row := data.row.insert index entry.2 }
      have written : (model.withConstraint entry.1.index change).row (.place row) =
          if entry.1.index.position? = some row then
            (model.row (.place row)).insert index entry.2
          else model.row (.place row) :=
        model.row_withConstraint entry.1.index
          (fun row => row.insert index entry.2) (fun _ => rfl) present
      have count := model.rowCount_withConstraint entry.1.index change
      refine (row_withEntries index rest (lt_of_lt_of_eq present count.symm)).trans ?_
      rw [written]
      by_cases addressed : entry.1.index.position? = some row
      · simp [amountsAt, addressed, Row.insertAll]
      · simp [amountsAt, addressed]

theorem row_withoutCells (index : Index) {row : Nat}
    (present : row < model.rowCount) :
    (model.withoutCells index).row (.place row) =
      (model.row (.place row)).remove index := by
  have inside : row < (model.withoutCells index).constraintTable.length :=
    lt_of_lt_of_eq present (model.rowCount_withoutCells index).symm
  rw [row_place inside, row_place present]
  simp only [withoutCells, List.getElem_map]
  rfl

end Rows

end Model

end LinearProgram
