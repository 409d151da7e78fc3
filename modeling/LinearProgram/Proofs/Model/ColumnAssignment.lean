import LinearProgram.Proofs.Model.ByRows
import LinearProgram.Proofs.Model.Targets

/-!
# Assigning a column

The column of a variable is assigned by emptying its cell in every row, and by
adding the entries one by one where they belong.  The column is read by going
through the rows.  So what is read is what the entries of each constraint came
to, in the order of the table.

An assignment leaves the other cells of a row alone.  This is said by removing the
cell of the variable from both rows: they are the same then, the order of the cells
included.
-/

namespace LinearProgram

theorem OrderedMap.erase_insert_self {κ β : Type} [DecidableEq κ]
    (map : OrderedMap κ β) (key : κ) (value : β) :
    (map.insert key value).erase key = map.erase key := by
  have discarded : ∀ entries : List (κ × β),
      discard key (assign key value entries) = discard key entries := by
    intro entries
    induction entries with
    | nil => simp [assign, discard]
    | cons entry rest induction =>
        obtain ⟨label, held⟩ := entry
        by_cases same : label = key
        · simp [assign, discard, same]
        · have tail : (assign key value rest).filter (fun entry => entry.1 ≠ key) =
              rest.filter (fun entry => entry.1 ≠ key) := induction
          have listed : label ≠ key := same
          rw [assign, if_neg same, discard, discard,
            List.filter_cons_of_pos (by simpa using listed), tail,
            List.filter_cons_of_pos (by simpa using listed)]
  exact ext (discarded map.toList)

/-- Constraints and coefficients are paired in the order in which they are given. -/
theorem Column.entries_of_pair {α : Type} [Scalar α] {constraints : List Participant}
    {coefficients : List α} {column : Column α}
    (success : pair constraints coefficients = .ok column) :
    column.entries = constraints.zip coefficients := by
  unfold pair at success
  split at success
  · cases success
  · split at success
    · cases success
    · cases success
      rfl

namespace Row

section Tallies

variable {α : Type} [Scalar α]

/-- What a cell has after an addition: nothing if the sum is nearly zero. -/
def addedTo (cell : Option α) (amount : α) : Option α :=
  if Scalar.nearZero (cell.getD 0 + amount) then none else some (cell.getD 0 + amount)

/-- What amounts come to in an empty cell, added one after the other. -/
def tally (amounts : List α) : Option α := amounts.foldl addedTo none

theorem cell_insert (row : Row α) (index : Index) (amount : α) :
    (row.insert index amount).cells.get? index =
      addedTo (row.cells.get? index) amount := by
  by_cases small : Scalar.nearZero (row.coefficient index + amount) = true
  · rw [insert_of_small small, remove, OrderedMap.get?_erase, if_pos rfl]
    exact (if_pos small).symm
  · rw [insert_of_large small, OrderedMap.get?_insert, if_pos rfl]
    exact (if_neg small).symm

theorem cell_insertAll (row : Row α) (index : Index) (amounts : List α) :
    (row.insertAll index amounts).cells.get? index =
      amounts.foldl addedTo (row.cells.get? index) := by
  induction amounts generalizing row with
  | nil => rfl
  | cons amount rest induction =>
      exact (induction _).trans (by rw [cell_insert]; rfl)

theorem remove_insert (row : Row α) (index : Index) (amount : α) :
    (row.insert index amount).remove index = row.remove index := by
  by_cases small : Scalar.nearZero (row.coefficient index + amount) = true
  · rw [insert_of_small small, remove, remove]
    congr 1
    exact OrderedMap.erase_of_not_mem (by rw [OrderedMap.keys_erase]; simp)
  · rw [insert_of_large small, remove, remove]
    congr 1
    exact OrderedMap.erase_insert_self _ _ _

theorem remove_insertAll (row : Row α) (index : Index) (amounts : List α) :
    (row.insertAll index amounts).remove index = row.remove index := by
  induction amounts generalizing row with
  | nil => rfl
  | cons amount rest induction =>
      exact (induction _).trans (row.remove_insert index amount)

omit [Scalar α] in
theorem remove_remove (row : Row α) (index : Index) :
    (row.remove index).remove index = row.remove index := by
  rw [remove, remove]
  congr 1
  exact OrderedMap.erase_of_not_mem (by rw [OrderedMap.keys_erase]; simp)

theorem getD_addedTo (cell : Option α) (amount : α) :
    (addedTo cell amount).getD 0 = kept (cell.getD 0 + amount) := by
  unfold addedTo kept
  split <;> rfl

/-- Rows that are the same without a cell, and the same in that cell, have the same
coefficients. -/
theorem coefficient_of_remove {row other : Row α} {index : Index}
    (rest : other.remove index = row.remove index)
    (cell : other.cells.get? index = row.cells.get? index) (position : Index) :
    other.coefficient position = row.coefficient position := by
  by_cases same : position = index
  · rw [coefficient, coefficient, same, cell]
  · rw [← coefficient_remove_of_ne other same, rest, coefficient_remove_of_ne row same]

end Tallies

section Sums

variable {amounts : List Float}

theorem SumsFinite.foldl_addedTo {cell : Option Float}
    (sums : SumsFinite (cell.getD 0) amounts)
    (finite : Scalar.isFinite (cell.getD 0) = true) :
    Scalar.isFinite ((amounts.foldl addedTo cell).getD 0) = true := by
  induction amounts generalizing cell with
  | nil => exact finite
  | cons amount rest induction =>
      apply induction
      · rw [getD_addedTo]
        exact sums.2
      · rw [getD_addedTo]
        exact isFinite_kept sums.1

/-- What does not overflow on the way is finite in the end. -/
theorem SumsFinite.tally (sums : SumsFinite 0 amounts) {sum : Float}
    (result : tally amounts = some sum) : Scalar.isFinite sum = true := by
  have finite := @SumsFinite.foldl_addedTo amounts none sums LawfulScalar.isFinite_zero
  rw [← Row.tally, result] at finite
  exact finite

/-- A single amount is kept as it is, unless it is nearly zero. -/
theorem tally_singleton (amount : Float) :
    tally [amount] = if Scalar.nearZero amount then none else some amount := by
  change (if Scalar.nearZero (0 + amount) then none else some (0 + amount)) = _
  rw [Double.nearZero_zero_add]
  split
  · rfl
  · rename_i large
    rw [Double.zero_add_of_large (by simpa using large)]

end Sums

end Row

namespace Model

section Assigned

variable {model : Model Float} {index : Index} {entries : List (Participant × Float)}

/-- What a model is after the entries of a column were assigned to a variable, as far
as its constraints are concerned. -/
structure ColumnAssigned (before after : Model Float) (index : Index)
    (entries : List (Participant × Float)) : Prop where
  rowCount : after.rowCount = before.rowCount
  /-- The variable has what the entries for a constraint come to. -/
  cell : ∀ row < before.rowCount, (after.row (.place row)).cells.get? index =
    Row.tally (amountsAt row entries)
  /-- The other cells and the constant are the same, and in the same order. -/
  rest : ∀ row < before.rowCount, (after.row (.place row)).remove index =
    (before.row (.place row)).remove index
  relation : ∀ row < before.rowCount,
    after.relation (.place row) = before.relation (.place row)

theorem row_assigned {row : Nat} (present : row < model.rowCount) :
    ((Write.entries index entries).onto model).row (.place row) =
      ((model.row (.place row)).remove index).insertAll index
        (amountsAt row entries) := by
  have stays : row < (model.withoutCells index).rowCount :=
    lt_of_lt_of_eq present (model.rowCount_withoutCells index).symm
  refine (row_withEntries index entries stays).trans ?_
  rw [row_withoutCells index present]

/-- The entries are the only thing that is written. -/
theorem columnAssigned_onto (model : Model Float) (index : Index)
    (entries : List (Participant × Float)) :
    model.ColumnAssigned ((Write.entries index entries).onto model) index entries where
  rowCount := (rowCount_withEntries _ _ _).trans (model.rowCount_withoutCells index)
  cell := by
    intro row present
    rw [row_assigned present, Row.cell_insertAll, Row.remove, OrderedMap.get?_erase,
      if_pos rfl]
    rfl
  rest := by
    intro row present
    rw [row_assigned present, Row.remove_insertAll, Row.remove_remove]
  relation := by
    intro row present
    have kept := tablesKept_onto
      (fun part (targets : (Write.entries index entries).Targets model part) => targets)
    obtain ⟨new, found, same⟩ :=
      kept.constraint_kept row _ (List.getElem?_eq_getElem present)
    have untargeted : ¬(Write.entries index entries).Targets model (.relation row) := by
      intro targeted
      cases targeted
    obtain ⟨inside, rfl⟩ := List.getElem?_eq_some_iff.mp found
    rw [relation_place inside, relation_place present]
    exact same.relation untargeted

end Assigned

section Listing

variable {model : Model Float} {index : Index} {entries : List (Participant × Float)}

/-- The constraints that have an amount, with that amount, in the order of the
table. -/
def listing (model : Model Float) (amount? : Nat → Option Float) :
    List (Participant × Float) :=
  (List.range model.rowCount).filterMap (fun row =>
    (amount? row).map (fun amount => (model.constraintAt row, amount)))

/-- What a variable has in the constraint at a position. -/
def cellAt (model : Model Float) (index : Index) (row : Nat) : Option Float :=
  (model.row (.place row)).cells.get? index

theorem mem_listing {amount? : Nat → Option Float} {entry : Participant × Float} :
    entry ∈ model.listing amount? ↔ ∃ row < model.rowCount,
      entry.1 = model.constraintAt row ∧ amount? row = some entry.2 := by
  obtain ⟨participant, amount⟩ := entry
  simp only [listing, List.mem_filterMap, List.mem_range, Option.map_eq_some_iff,
    Prod.mk.injEq]
  constructor
  · rintro ⟨row, present, _, found, same, rfl⟩
    exact ⟨row, present, same.symm, found⟩
  · rintro ⟨row, present, same, found⟩
    exact ⟨row, present, amount, found, same.symm, rfl⟩

theorem listing_congr {other : Model Float} {amount? other? : Nat → Option Float}
    (reference : other.reference = model.reference) (count : other.rowCount = model.rowCount)
    (same : ∀ row < model.rowCount, other? row = amount? row) :
    other.listing other? = model.listing amount? := by
  rw [listing, listing, count]
  apply List.filterMap_congr
  intro row inside
  rw [same row (List.mem_range.mp inside), constraintAt, constraintHandle, reference]
  rfl

/-- No constraint is listed twice. -/
theorem nodup_listing (amount? : Nat → Option Float) :
    ((model.listing amount?).map (fun entry => entry.1.index)).Nodup := by
  have places : (model.listing amount?).map (fun entry => entry.1.index) =
      ((List.range model.rowCount).filter (fun row => (amount? row).isSome)).map
        Index.place := by
    rw [listing, List.map_filterMap, ← List.filterMap_eq_map, List.filterMap_filter]
    apply List.filterMap_congr
    intro row _
    cases found : amount? row <;> simp [constraintAt, constraintHandle, Constraint.participant]
  rw [places]
  exact (List.nodup_range.filter _).map (fun _ _ same => Index.place.inj same)

/-- No negligible amount is kept, so the column lists all cells. -/
theorem columnCells_of_large (rows : model.RowsWithin (fun _ => True)) (index : Index) :
    model.columnCells index = (List.range model.rowCount).filterMap (fun row =>
      (model.cellAt index row).map (fun amount => (Index.place row, amount))) := by
  have listed := model.map_zipIdx_table
    (fun row cells => (Index.place row, cells.coefficient index))
  rw [columnCells, listed, ← List.filterMap_eq_filter, List.filterMap_map]
  apply List.filterMap_congr
  intro row _
  have large := row_of_forall (fun row => row.Within (fun _ => True)) rows
    (Row.within_empty 0 _) (.place row)
  simp only [Function.comp_apply, cellAt, Row.coefficient]
  cases found : (model.row (.place row)).cells.get? index with
  | none => simp [show ((0 : Float) == 0) = true by decide]
  | some amount =>
      have nonzero := Double.beq_zero_of_large
        (large _ (OrderedMap.get?_eq_some_iff.mp found)).2
      simp [nonzero]

private theorem columnCells_listed (rows : model.RowsWithin (fun _ => True))
    (index : Index) :
    (model.columnCells index).map
        (fun cell => ((model.constraintHandle cell.1).participant, cell.2)) =
      model.listing (model.cellAt index) := by
  rw [columnCells_of_large rows, List.map_filterMap, listing]
  apply List.filterMap_congr
  intro row _
  rw [Option.map_map]
  rfl

/-- A column that can be read lists the cells of its variable. -/
theorem entries_of_column (paired : model.Paired)
    (rows : model.RowsWithin (fun _ => True))
    {read : Column Float} (success : model.column index = .ok read) :
    read.entries = model.listing (model.cellAt index) := by
  rw [column_eq_pair paired] at success
  rw [← columnCells_listed rows index, Column.entries_of_pair success, List.zip_map']

/-- A column of finite cells can be read. -/
theorem exists_column_of_finite (paired : model.Paired)
    (rows : model.RowsWithin (fun _ => True))
    (finite : ∀ row < model.rowCount, ∀ amount, model.cellAt index row = some amount →
      Scalar.isFinite amount = true) :
    ∃ read, model.column index = .ok read ∧
      read.entries = model.listing (model.cellAt index) := by
  have amounts : ∀ cell ∈ model.columnCells index, Scalar.isFinite cell.2 = true := by
    intro cell membership
    rw [columnCells_of_large rows, List.mem_filterMap] at membership
    obtain ⟨row, inside, listed⟩ := membership
    obtain ⟨amount, found, rfl⟩ := Option.map_eq_some_iff.mp listed
    exact finite row (List.mem_range.mp inside) amount found
  obtain ⟨read, success, _⟩ := @Column.exists_pair _ _ _ _
    (fun cell => (model.constraintHandle cell.1).participant) _ amounts
  rw [← column_eq_pair paired] at success
  exact ⟨read, success, entries_of_column paired rows success⟩

end Listing

section Distinct

variable {model : Model Float} {entries : List (Participant × Float)}

/-- All entries are of constraints in the table. -/
def KnowsEntries (model : Model Float) (entries : List (Participant × Float)) : Prop :=
  ∀ entry ∈ entries, model.HasConstraint entry.1

theorem KnowsEntries.listed (known : model.KnowsEntries entries) :
    model.ListsEntries entries :=
  fun entry membership => (known entry membership).listed

theorem knowsEntries_listing (amount? : Nat → Option Float) :
    model.KnowsEntries (model.listing amount?) := by
  rintro ⟨_, amount⟩ membership
  obtain ⟨row, present, rfl, _⟩ := mem_listing.mp membership
  exact ⟨rfl, row, present, rfl⟩

theorem amountsAt_eq_nil {row : Nat} (known : model.KnowsEntries entries)
    (unnamed : ∀ entry ∈ entries, entry.1.index ≠ .place row) :
    amountsAt row entries = [] := by
  rw [amountsAt, List.map_eq_nil_iff, List.filter_eq_nil_iff]
  intro entry membership named
  obtain ⟨_, place, _, stated⟩ := known entry membership
  apply unnamed entry membership
  simpa [stated, Index.position?] using named

/-- Among entries of distinct constraints, a constraint has one amount only. -/
theorem amountsAt_of_mem (known : model.KnowsEntries entries)
    (distinct : (entries.map (fun entry => entry.1.index)).Nodup)
    {entry : Participant × Float} (membership : entry ∈ entries) {row : Nat}
    (named : entry.1.index = .place row) : amountsAt row entries = [entry.2] := by
  induction entries with
  | nil => cases membership
  | cons first rest induction =>
      rw [List.map_cons, List.nodup_cons] at distinct
      have knownRest : model.KnowsEntries rest :=
        fun other listed => known other (List.mem_cons_of_mem _ listed)
      rcases List.mem_cons.mp membership with rfl | later
      · have others : amountsAt row rest = [] := by
          apply amountsAt_eq_nil knownRest
          intro other listed same
          apply distinct.1
          rw [named, ← same]
          exact List.mem_map_of_mem listed
        rw [amountsAt, List.filter_cons_of_pos (by simp [named, Index.position?]),
          List.map_cons]
        exact congrArg _ others
      · have apart : first.1.index.position? ≠ some row := by
          obtain ⟨_, place, _, stated⟩ := known first List.mem_cons_self
          intro same
          apply distinct.1
          have equal : place = row := by simpa [stated, Index.position?] using same
          rw [stated, equal, ← named]
          exact List.mem_map_of_mem later
        rw [amountsAt, List.filter_cons_of_neg (by simpa using apart)]
        exact induction knownRest distinct.2 later

/-- The handle that a model keeps for the constraint of an entry, with its amount. -/
def ownEntry (model : Model Float) (entry : Participant × Float) : Participant × Float :=
  ((model.constraintHandle entry.1.index).participant, entry.2)

/-- What entries of distinct constraints come to is what is not negligible of
them. -/
theorem perm_listing (known : model.KnowsEntries entries)
    (distinct : (entries.map (fun entry => entry.1.index)).Nodup) :
    (model.listing (fun row => Row.tally (amountsAt row entries))).Perm
      ((entries.filter (fun entry => !Scalar.nearZero entry.2)).map model.ownEntry) := by
  have own : ∀ {given : Participant × Float} {row : Nat},
      given.1.index = .place row → model.ownEntry given =
        (model.constraintAt row, given.2) := by
    intro given row place
    rw [ownEntry, place]
    rfl
  have once : (((entries.filter (fun entry => !Scalar.nearZero entry.2)).map
      model.ownEntry).map (fun entry => entry.1.index)).Nodup := by
    rw [List.map_map]
    exact distinct.sublist (List.filter_sublist.map _)
  rw [List.perm_ext_iff_of_nodup (nodup_listing _).of_map once.of_map]
  rintro ⟨participant, amount⟩
  simp only [mem_listing, List.mem_map, List.mem_filter]
  constructor
  · rintro ⟨row, _, rfl, result⟩
    obtain ⟨given, membership, place⟩ :
        ∃ given ∈ entries, given.1.index = .place row := by
      by_contra unnamed
      have nothing : amountsAt row entries = [] := by
        apply amountsAt_eq_nil known
        exact fun entry membership place => unnamed ⟨entry, membership, place⟩
      rw [nothing] at result
      cases result
    rw [amountsAt_of_mem known distinct membership place, Row.tally_singleton] at result
    obtain ⟨large, same⟩ := Option.ite_none_left_eq_some.mp result
    cases same
    exact ⟨given, ⟨membership, by simpa using large⟩, own place⟩
  · rintro ⟨given, ⟨membership, large⟩, same⟩
    obtain ⟨_, row, present, place⟩ := known given membership
    rw [own place] at same
    cases same
    refine ⟨row, present, rfl, ?_⟩
    rw [amountsAt_of_mem known distinct membership place, Row.tally_singleton,
      if_neg (by simpa using large)]

/-- The column that is read off a model comes to the cells from which it was read. -/
theorem tally_listing (rows : model.RowsWithin (fun _ => True)) {index : Index} {row : Nat}
    (present : row < model.rowCount) :
    Row.tally (amountsAt row (model.listing (model.cellAt index))) =
      model.cellAt index row := by
  have known := model.knowsEntries_listing (model.cellAt index)
  cases found : model.cellAt index row with
  | none =>
      have nothing : amountsAt row (model.listing (model.cellAt index)) = [] := by
        apply amountsAt_eq_nil known
        rintro ⟨_, amount⟩ membership place
        obtain ⟨other, _, rfl, held⟩ := mem_listing.mp membership
        cases Index.place.inj place
        rw [found] at held
        cases held
      rw [nothing]
      rfl
  | some amount =>
      have membership : (model.constraintAt row, amount) ∈
          model.listing (model.cellAt index) := mem_listing.mpr ⟨row, present, rfl, found⟩
      have large := row_of_forall (fun row => row.Within (fun _ => True)) rows
        (Row.within_empty 0 _) (.place row) _ (OrderedMap.get?_eq_some_iff.mp found)
      rw [amountsAt_of_mem known (nodup_listing _) membership rfl, Row.tally_singleton,
        if_neg (by simpa using large.2)]

end Distinct

section Law

variable {model : Model Float} {index : Index} {tag : Nat} {column : Column Float}

/-- What the assignment of a column to a variable does, and what is read then. -/
structure ColumnLaw (model : Model Float) (index : Index) (tag : Nat)
    (column : Column Float) : Prop where
  /-- A constraint of another model is refused, and nothing changes.  If all others are
  in the table, that constraint is what the refusal is about. -/
  foreign : (∃ entry ∈ column.entries, entry.1.owner ≠ .model model.reference) →
    (∃ error, (Change.setColumn index (.column tag column)).apply model =
      .error error model) ∧
    ((∀ entry ∈ column.entries, entry.1.owner = .model model.reference →
        model.HasConstraint entry.1) →
      ∃ entry ∈ column.entries, entry.1.owner ≠ .model model.reference ∧
        (Change.setColumn index (.column tag column)).apply model =
          .error (.foreignConstraint entry.1.index) model)
  assigned : model.KnowsEntries column.entries →
    model.Succeeds (.setColumn index (.column tag column)) ∧
      model.ColumnAssigned (model.after (.setColumn index (.column tag column))) index
        column.entries
  /-- If no sum overflows, the column that is read lists what is left of the sums. -/
  listed : model.KnowsEntries column.entries →
    (∀ row < model.rowCount, Row.SumsFinite 0 (amountsAt row column.entries)) →
    ∃ read, (model.after (.setColumn index (.column tag column))).column index = .ok read ∧
      read.entries = model.listing (fun row => Row.tally (amountsAt row column.entries))
  /-- A column of distinct constraints is read as it was given, in the order of the
  table and without what is negligible. -/
  sorted : model.KnowsEntries column.entries →
    (column.entries.map (fun entry => entry.1.index)).Nodup →
    ∃ read, (model.after (.setColumn index (.column tag column))).column index = .ok read ∧
      read.entries = model.listing (fun row => Row.tally (amountsAt row column.entries)) ∧
      read.entries.Perm
        ((column.entries.filter (fun entry => !Scalar.nearZero entry.2)).map model.ownEntry)
  /-- The column that was read can be assigned again, which changes no coefficient. -/
  restored : model.column index = .ok column →
    model.Succeeds (.setColumn index (.column tag column)) ∧
      ∀ row < model.rowCount, ∀ position,
        ((model.after (.setColumn index (.column tag column))).row
          (.place row)).coefficient position =
            (model.row (.place row)).coefficient position

theorem after_setColumn (known : model.KnowsEntries column.entries) :
    model.Succeeds (.setColumn index (.column tag column)) ∧
      model.after (.setColumn index (.column tag column)) =
        (Write.entries index column.entries).onto model := by
  have accepts : model.Accepts (.setColumn index (.column tag column))
      (.entries index column.entries) := .setColumn rfl known.listed
  exact ⟨⟨_, apply_of_accepts accepts⟩, after_of_ok (apply_of_accepts accepts)⟩

theorem sumsFinite_of_distinct (known : model.KnowsEntries column.entries)
    (distinct : (column.entries.map (fun entry => entry.1.index)).Nodup) (row : Nat) :
    Row.SumsFinite 0 (amountsAt row column.entries) := by
  by_cases named : ∃ entry ∈ column.entries, entry.1.index = .place row
  · obtain ⟨entry, membership, place⟩ := named
    rw [amountsAt_of_mem known distinct membership place]
    exact ⟨Double.isFinite_zero_add (column.finite entry membership), trivial⟩
  · rw [amountsAt_eq_nil known
      (fun entry membership place => named ⟨entry, membership, place⟩)]
    trivial

/-- What is read after an assignment, if no sum overflows. -/
theorem exists_column_assigned (paired : model.Paired)
    (rows : model.RowsWithin (fun _ => True)) (known : model.KnowsEntries column.entries)
    (sums : ∀ row < model.rowCount, Row.SumsFinite 0 (amountsAt row column.entries)) :
    ∃ read, (model.after (.setColumn index (.column tag column))).column index = .ok read ∧
      read.entries =
        model.listing (fun row => Row.tally (amountsAt row column.entries)) := by
  have assigned := columnAssigned_onto model index column.entries
  have large := rows.onto (within_any (.entries index column.entries))
  have finite : ∀ row < ((Write.entries index column.entries).onto model).rowCount,
      ∀ amount, ((Write.entries index column.entries).onto model).cellAt index row =
        some amount → Scalar.isFinite amount = true := by
    intro row present amount found
    rw [assigned.rowCount] at present
    rw [cellAt, assigned.cell row present] at found
    exact (sums row present).tally found
  have stillPaired := paired.after
    (show (Change.setColumn index (.column tag column)).registers = false from rfl)
  rw [(after_setColumn known).2] at stillPaired
  obtain ⟨read, success, entries⟩ := exists_column_of_finite stillPaired large finite
  rw [(after_setColumn known).2]
  exact ⟨read, success, entries.trans (listing_congr rfl assigned.rowCount assigned.cell)⟩

/-- What names a constraint of another model is not accepted, whatever else it names. -/
theorem refused_of_foreign
    (foreign : ∃ entry ∈ column.entries, entry.1.owner ≠ .model model.reference) :
    ∃ error, (Change.setColumn index (.column tag column)).apply model =
      .error error model := by
  obtain ⟨entry, membership, apart⟩ := foreign
  rcases apply_cases model (.setColumn index (.column tag column)) with
    refused | ⟨write, accepts, _⟩ | ⟨issues, misloads⟩
  · exact refused
  · cases accepts with
    | setColumn accepted listed =>
        cases accepted
        exact absurd (listed.owned entry membership) apart
  · cases misloads

/-- In every state of which all constraints have handles, and for every variable: a
column of other constraints is refused as a whole; any other is what the variable has
afterwards, and what is read. -/
theorem columnLaw_reached (reference : ModelRef) (direction : Direction)
    {changes : List (Change Float)}
    (keeping : ∀ change ∈ changes, change.registers = false)
    (index : Index) (tag : Nat) (column : Column Float) :
    (reached reference direction changes).ColumnLaw index tag column := by
  have paired := paired_reached reference direction keeping
  have rows := large_reached reference direction changes
  generalize reached reference direction changes = model at paired rows
  constructor
  case foreign =>
    intro foreign
    refine ⟨refused_of_foreign foreign, ?_⟩
    intro known
    obtain ⟨entry, membership, apart, refused⟩ := requireRows_of_foreign
      (fun entry membership own => (known entry membership own).listed.2) foreign
    have asked : (Column.entriesOf (.column tag column) : Except (Error Float) _) =
        .ok column.entries := rfl
    refine ⟨entry, membership, apart, ?_⟩
    exact (Update.bind_of_check asked).trans (Update.bind_of_error refused)
  case assigned =>
    intro known
    obtain ⟨succeeds, written⟩ := @after_setColumn model index tag column known
    rw [written]
    exact ⟨succeeds, columnAssigned_onto model index column.entries⟩
  case listed => exact exists_column_assigned paired rows
  case sorted =>
    intro known distinct
    obtain ⟨read, success, entries⟩ := exists_column_assigned paired rows known
      (fun row _ => sumsFinite_of_distinct known distinct row)
    refine ⟨read, success, entries, ?_⟩
    rw [entries]
    exact perm_listing known distinct
  case restored =>
    intro success
    have entries := entries_of_column paired rows success
    have known : model.KnowsEntries column.entries := by
      rw [entries]
      exact knowsEntries_listing _
    obtain ⟨succeeds, written⟩ := @after_setColumn model index tag column known
    have assigned := columnAssigned_onto model index column.entries
    refine ⟨succeeds, ?_⟩
    intro row present
    rw [written]
    apply Row.coefficient_of_remove (assigned.rest row present)
    rw [assigned.cell row present, entries, tally_listing rows present]
    rfl

end Law

section Repeated

private def assignedModel : ModelRef := ⟨0, "m"⟩

private def assignedRow (position : Nat) : Participant :=
  Constraint.participant { model := assignedModel, index := .place position }

/-- Two constraints of which both contain the variable. -/
private def twoRows : List (Change Float) :=
  [.addVariable .missing, .addConstraint atMostOne "", .addConstraint atMostOne ""]
where
  atMostOne : Expression Float := {
    terms := ⟨[(.place 0, ⟨(assignedModel.variable (.place 0)).participant, 1⟩)], by simp⟩
    constant := -1
    relation := .atMost }

/-- The entries of the second constraint cancel out. -/
private def repeating : Column Float :=
  ⟨[(assignedRow 1, 2), (assignedRow 0, -1), (assignedRow 1, -2), (assignedRow 0, 4)],
    by decide⟩

/-- The entries that cancel out are not read, and the others are read as one. -/
theorem columnLaw_reached_repeating :
    let model : Model Float := reached assignedModel .minimize twoRows
    ∃ read, (model.after (.setColumn (.place 0) (.column 0 repeating))).column (.place 0) =
        .ok read ∧ read.entries = [(assignedRow 0, 3)] := by
  intro model
  have known : model.KnowsEntries repeating.entries := by
    simp only [KnowsEntries, HasConstraint]
    decide +kernel
  obtain ⟨read, success, entries⟩ :=
    (@columnLaw_reached assignedModel .minimize twoRows (by decide)
      (.place 0) 0 repeating).listed known (by decide +kernel)
  refine ⟨read, success, entries.trans ?_⟩
  decide +kernel

end Repeated

end Model

end LinearProgram
