import LinearProgram.Proofs.Double.Order
import LinearProgram.Proofs.Model.Conflicting
import LinearProgram.Proofs.Workspace.Runs

/-!
# The graph of conflicts

The assignments of the binary variables are the nodes of a graph whose edges are
the conflicts.  The graph is undirected, although a sum over the two assignments
is taken in the order in which they are given, and a recorded pair is filed under
one text.  The only law of arithmetic behind it is that sums commute.

A listing goes through the variables and asks for one edge after the other, so it
gives the neighbours of an assignment.

Each answer looks up bounds and handles.  All of them are there as long as rows are over
the table, and whatever is in the table has handles.

A pair that was recorded is an edge from then on.  But the graph has no loops, so
an assignment that was recorded with itself is not reported.
-/

namespace LinearProgram

theorem Index.same_comm (first second : Index) :
    first.same second = second.same first := by
  rw [Bool.eq_iff_iff, same_iff, same_iff]
  constructor
  · rintro ⟨rfl, defined⟩
    exact ⟨rfl, defined⟩
  · rintro ⟨rfl, defined⟩
    exact ⟨rfl, defined⟩

namespace Model

variable {α : Type} [Scalar α] {model : Model α}

/-- The positions are those of the binary variables, other than that of the
assignment, whose assignment to a value is in conflict with it.  They increase. -/
structure Neighbours (model : Model α) (assignment : Assignment)
    (positive : Bool) (positions : List Nat) : Prop where
  increasing : positions.Pairwise (· < ·)
  mem_iff : ∀ position, position ∈ positions ↔
    (model.kind (.place position)).isBinary = true ∧
      .place position ≠ assignment.index ∧
      model.conflicting assignment ⟨positive, .place position⟩ = true

/-- Conflicts do not depend on an order, and two assignments of one variable are
in conflict if and only if they differ.  Of two binary variables, either both
list each other or neither does. -/
structure Undirected (model : Model α) : Prop where
  symmetric : ∀ first second,
    model.conflicting first second = model.conflicting second first
  opposite : ∀ first second, first.index.same second.index = true →
    (model.conflicting first second = true ↔ first.positive ≠ second.positive)
  listed : ∀ assignment positive,
    model.Neighbours assignment positive (model.conflictsAt assignment positive)
  reciprocal : ∀ first second value otherValue,
    (model.kind (.place first)).isBinary = true →
    (model.kind (.place second)).isBinary = true →
      (second ∈ model.conflictsAt ⟨value, .place first⟩ otherValue ↔
        first ∈ model.conflictsAt ⟨otherValue, .place second⟩ value)

section Symmetry

theorem recorded_comm (model : Model α) (first second : Assignment) :
    model.recorded first second = model.recorded second first := by
  rw [recorded, recorded, Assignment.pairKey_comm]

omit [Scalar α] in
theorem freeCells_comm (row : Row α) (first second : Assignment) :
    freeCells row first second = freeCells row second first := by
  simp only [freeCells, Bool.and_comm]

variable (add_comm : ∀ first second : α, first + second = second + first)
include add_comm

theorem fixedActivity_comm (row : Row α) (first second : Assignment) :
    fixedActivity row first second = fixedActivity row second first :=
  add_comm _ _

/-- A row excludes two assignments in either order: the extreme activities are
sums over the same cells in the same order, from the same start. -/
theorem excludes_comm (model : Model α) (data : ConstraintRecord α)
    (first second : Assignment) :
    model.excludes data first second = model.excludes data second first := by
  have fixed := fixedActivity_comm add_comm data.row first second
  have free := freeCells_comm data.row first second
  simp only [excludes, leastActivity, greatestActivity, fixed, free,
    Bool.or_comm (data.row.coefficient first.index == 0)]

theorem conflicting_comm (model : Model α) (first second : Assignment) :
    model.conflicting first second = model.conflicting second first := by
  have sides : (first.positive != second.positive) =
      (second.positive != first.positive) := bne_comm
  simp only [conflicting, Index.same_comm first.index,
    model.recorded_comm first, excludes_comm add_comm model _ first, sides]

end Symmetry

section Listing

theorem conflicting_of_same {first second : Assignment}
    (same : first.index.same second.index = true) :
    model.conflicting first second = true ↔
      first.positive ≠ second.positive := by
  rw [conflicting, if_pos same, bne_iff_ne]

/-- Only a variable of the table can be binary. -/
theorem lt_columnCount_of_isBinary {position : Nat}
    (binary : (model.kind (.place position)).isBinary = true) :
    position < model.columnCount := by
  by_contra outside
  have absent : (Index.place position).get? model.variableTable = none :=
    List.getElem?_eq_none (Nat.le_of_not_lt outside)
  rw [kind, absent] at binary
  cases binary

theorem neighbours_conflictsAt (model : Model α) (assignment : Assignment)
    (positive : Bool) :
    model.Neighbours assignment positive
      (model.conflictsAt assignment positive) := by
  constructor
  case increasing => exact List.pairwise_lt_range.filter _
  case mem_iff =>
    intro position
    simp only [conflictsAt, List.mem_filter, List.mem_range, Bool.and_eq_true,
      decide_eq_true_iff]
    constructor
    · rintro ⟨_, ⟨other, binary⟩, conflict⟩
      exact ⟨binary, other, conflict⟩
    · rintro ⟨binary, other, conflict⟩
      exact ⟨lt_columnCount_of_isBinary binary, ⟨other, binary⟩, conflict⟩

end Listing

section LookingUp

/-- Where all cells of a row are of variables in the table, all bounds are found. -/
theorem findExclusion_eq {data : ConstraintRecord α}
    (spans : data.row.Over model.columnCount) (first second : Assignment) :
    model.findExclusion data first second = .ok (model.excludes data first second) := by
  have bounded : ∀ cell ∈ freeCells data.row first second,
      (discard (model.requireBounds cell.1) : Except (Error α) Unit) = .ok () := by
    intro cell membership
    obtain ⟨⟨position, inside, place⟩, _⟩ :=
      spans cell (List.mem_filter.mp membership).1
    have found : cell.1.get? model.variableTable = some model.variableTable[position] := by
      rw [place]
      exact List.getElem?_eq_getElem inside
    rw [requireBounds, Index.entry, found]
    rfl
  unfold findExclusion
  by_cases absent : (data.row.coefficient first.index == 0 ||
      data.row.coefficient second.index == 0) = true
  · rw [if_pos absent, excludes, if_pos absent]
    rfl
  · rw [if_neg absent, Check.forM_eq_ok bounded]
    rfl

theorem findConflict_eq (rows : model.RowsInRange) (first second : Assignment) :
    model.findConflict first second = .ok (model.conflicting first second) := by
  unfold findConflict conflicting
  split
  · rfl
  · split
    · rename_i known
      rw [known]
      rfl
    · rename_i unknown
      rw [Bool.not_eq_true] at unknown
      rw [unknown]
      exact Check.anyM_eq_ok
        (fun data membership => findExclusion_eq (rows data membership) first second)

theorem findConflicts_eq (paired : model.Paired) (rows : model.RowsInRange)
    (assignment : Assignment) (positive : Bool) :
    model.findConflicts assignment positive =
      .ok (model.conflictsAt assignment positive) := by
  apply Check.filterM_eq_ok
  intro position inside
  have kept : (Index.place position).get? model.variableHandles =
      some (model.handle (.place position)) :=
    paired.hasHandle ⟨position, List.mem_range.mp inside, rfl⟩
  by_cases passed : (decide (Index.place position = assignment.index) ||
      !(model.kind (.place position)).isBinary) = true
  · have unlisted : (decide (Index.place position ≠ assignment.index) &&
        (model.kind (.place position)).isBinary) = false := by
      simpa [Classical.or_iff_not_imp_left] using passed
    rw [if_pos passed, unlisted]
    rfl
  · have asked : (decide (Index.place position ≠ assignment.index) &&
        (model.kind (.place position)).isBinary) = true := by
      simpa using passed
    rw [if_neg passed, asked, Index.entry, kept]
    exact findConflict_eq rows assignment _

end LookingUp

/-- If sums commute, then conflicts have no direction. -/
theorem undirected_of_add_comm
    (add_comm : ∀ first second : α, first + second = second + first)
    (model : Model α) : model.Undirected := by
  constructor
  case symmetric => exact conflicting_comm add_comm model
  case opposite => exact fun _ _ => conflicting_of_same
  case listed => exact model.neighbours_conflictsAt
  case reciprocal =>
    intro first second value otherValue binary otherBinary
    have forth := (model.neighbours_conflictsAt ⟨value, .place first⟩
      otherValue).mem_iff second
    have back := (model.neighbours_conflictsAt ⟨otherValue, .place second⟩
      value).mem_iff first
    rw [forth, back, conflicting_comm add_comm, ne_comm]
    simp only [binary, otherBinary]

section Recording

/-- A pair that was recorded is reported in either order, whatever came after it,
unless an assignment was recorded with itself. -/
theorem conflicting_of_recorded {reference : ModelRef} {direction : Direction}
    {changes : List (Change α)} {first second : Assignment}
    (recorded : Occurs reference direction changes (Records first second)) :
    ((reached reference direction changes).conflicting first second = true ↔
        ¬(first.index.same second.index = true ∧
          first.positive = second.positive)) ∧
      ((reached reference direction changes).conflicting second first = true ↔
        ¬(first.index.same second.index = true ∧
          first.positive = second.positive)) := by
  have listed := recorded_of_occurs recorded
  have otherListed := listed
  rw [recorded_comm] at otherListed
  have turned := Index.same_comm second.index first.index
  by_cases same : first.index.same second.index = true
  · rw [conflicting_of_same same, conflicting_of_same (turned.trans same),
      @ne_comm _ second.positive]
    simp only [same, true_and, Ne, and_self]
  · have otherApart : ¬second.index.same first.index = true := by
      rwa [turned]
    simp [conflicting, same, otherApart, listed, otherListed]

private def columnLiteral (position : Nat) : Literal :=
  ⟨true, ((⟨0, "m"⟩ : ModelRef).variable (.place position)).participant⟩

/-- Two variables are recorded as excluding each other.  Later, one of them is
renamed and gets another bound, and a row without any cells is added. -/
private def excluding : List (Change Float) :=
  [.addVariable .missing, .addVariable .missing,
    .addConflict (columnLiteral 0) (columnLiteral 1),
    .setName (.place 0) "y", .storeLower (.place 1) (-1),
    .storeConstraint { constant := 0, relation := .atMost } ""]

/-- The recorded pair is still reported after the later changes. -/
theorem conflicting_excluding :
    (reached ⟨0, "m"⟩ .minimize excluding).conflicting
        ⟨true, .place 0⟩ ⟨true, .place 1⟩ = true ∧
      (reached ⟨0, "m"⟩ .minimize excluding).conflicting
        ⟨true, .place 1⟩ ⟨true, .place 0⟩ = true := by
  have accepted : (reached ⟨0, "m"⟩ .minimize (excluding.take 2)).Succeeds
      (.addConflict (columnLiteral 0) (columnLiteral 1)) :=
    ⟨_, apply_of_accepts (.addConflict rfl rfl)⟩
  have recorded : Occurs ⟨0, "m"⟩ .minimize excluding
      (Records ⟨true, .place 0⟩ ⟨true, .place 1⟩) :=
    ⟨excluding.take 2, _, _, rfl, _, _, rfl, accepted, .inl ⟨rfl, rfl⟩⟩
  have reported := conflicting_of_recorded recorded
  exact ⟨reported.1.mpr (by decide), reported.2.mpr (by decide)⟩

/-- A variable is recorded as excluding itself. -/
private def looping : List (Change Float) :=
  [.addVariable .missing, .addConflict (columnLiteral 0) (columnLiteral 0)]

/-- The recorded pair is not reported. -/
theorem not_conflicting_looping :
    Occurs ⟨0, "m"⟩ .minimize looping
        (Records ⟨true, .place 0⟩ ⟨true, .place 0⟩) ∧
      (reached ⟨0, "m"⟩ .minimize looping).conflicting
        ⟨true, .place 0⟩ ⟨true, .place 0⟩ = false := by
  have accepted : (reached ⟨0, "m"⟩ .minimize (looping.take 1)).Succeeds
      (.addConflict (columnLiteral 0) (columnLiteral 0)) :=
    ⟨_, apply_of_accepts (.addConflict rfl rfl)⟩
  constructor
  · exact ⟨looping.take 1, _, _, rfl, _, _, rfl, accepted, .inl ⟨rfl, rfl⟩⟩
  · rfl

end Recording

end Model

namespace Workspace

variable {α : Type} [Scalar α] {workspace : Workspace α} {reference : ModelRef}

/-- The value stands for an assignment of a binary variable of the model. -/
def Reads (workspace : Workspace α) (reference : ModelRef) (value : Value α)
    (assignment : Assignment) : Prop :=
  ∃ literal, Literal.ofValue value = .ok literal ∧
    (workspace.model reference).requireBinary literal = .ok () ∧
    literal.assignment = assignment

/-- Both queries answer about the literals of binary variables, the first one the
same in either order. -/
structure AnswersConflicts (workspace : Workspace α) (reference : ModelRef) :
    Prop where
  answered : ∀ first second one other,
    workspace.Reads reference first one → workspace.Reads reference second other →
      workspace.conflicting reference first second =
        .ok ((workspace.model reference).conflicting one other)
  symmetric : ∀ first second answer,
    workspace.conflicting reference first second = .ok answer ↔
      workspace.conflicting reference second first = .ok answer
  listed : ∀ value assignment, workspace.Reads reference value assignment →
    workspace.conflicts reference value =
      .ok ((workspace.model reference).conflictsAt assignment true,
        (workspace.model reference).conflictsAt assignment false)

theorem conflicting_of_reads {first second : Value α} {one other : Assignment}
    (rows : (workspace.model reference).RowsInRange)
    (read : workspace.Reads reference first one)
    (otherRead : workspace.Reads reference second other) :
    workspace.conflicting reference first second =
      .ok ((workspace.model reference).conflicting one other) := by
  obtain ⟨literal, read, binary, rfl⟩ := read
  obtain ⟨otherLiteral, otherRead, otherBinary, rfl⟩ := otherRead
  simp only [conflicting, read, otherRead]
  simp only [bind, Except.bind, binary, otherBinary]
  exact Model.findConflict_eq rows _ _

theorem reads_of_conflicting {first second : Value α} {answer : Bool}
    (rows : (workspace.model reference).RowsInRange)
    (success : workspace.conflicting reference first second = .ok answer) :
    ∃ one other, workspace.Reads reference first one ∧
      workspace.Reads reference second other ∧
      (workspace.model reference).conflicting one other = answer := by
  obtain ⟨literal, read, success⟩ := Check.ok_of_bind success
  obtain ⟨otherLiteral, otherRead, success⟩ := Check.ok_of_bind success
  obtain ⟨_, binary, success⟩ := Check.ok_of_bind success
  obtain ⟨_, otherBinary, success⟩ := Check.ok_of_bind success
  rw [Model.findConflict_eq rows] at success
  cases success
  exact ⟨_, _, ⟨literal, read, binary, rfl⟩,
    ⟨otherLiteral, otherRead, otherBinary, rfl⟩, rfl⟩

theorem conflicts_of_reads {value : Value α} {assignment : Assignment}
    (paired : (workspace.model reference).Paired)
    (rows : (workspace.model reference).RowsInRange)
    (read : workspace.Reads reference value assignment) :
    workspace.conflicts reference value =
      .ok ((workspace.model reference).conflictsAt assignment true,
        (workspace.model reference).conflictsAt assignment false) := by
  obtain ⟨literal, read, binary, rfl⟩ := read
  simp only [conflicts, read]
  simp only [bind, Except.bind, binary, Model.findConflicts_eq paired rows]
  rfl

/-- Whatever happened before, as long as there are handles for all variables and all rows
are over them: the two queries answer from one undirected graph. -/
theorem conflicts_undirected {steps : List (Step Float)}
    (keeping : ∀ step ∈ steps, step.registers = false) (reference : ModelRef)
    (rows : ((reached steps).model reference).RowsInRange) :
    ((reached steps).model reference).Undirected ∧
      (reached steps).AnswersConflicts reference := by
  have paired := paired_reached keeping reference
  generalize reached steps = workspace at *
  have undirected : (workspace.model reference).Undirected :=
    Model.undirected_of_add_comm Double.add_comm _
  refine ⟨undirected, ?_⟩
  have turned : ∀ first second answer,
      workspace.conflicting reference first second = .ok answer →
        workspace.conflicting reference second first = .ok answer := by
    intro first second answer success
    obtain ⟨one, other, read, otherRead, rfl⟩ := reads_of_conflicting rows success
    rw [conflicting_of_reads rows otherRead read, undirected.symmetric]
  constructor
  case answered => exact fun _ _ _ _ => conflicting_of_reads rows
  case symmetric =>
    intro first second answer
    exact ⟨turned first second answer, turned second first answer⟩
  case listed => exact fun _ _ => conflicts_of_reads paired rows

section Packed

private def packing : ModelRef := ⟨0, "m"⟩

private def packed (position : Nat) : Variable := packing.variable (.place position)

/-- Three binary variables, of which the first two can not both be one. -/
private def packs : List (Step Float) :=
  [.createModel (.record [("name", .text "m")] 0),
    .addVariable packing (.record [("varType", .text "B")] 0),
    .addVariable packing (.record [("varType", .text "B")] 0),
    .addVariable packing (.record [("varType", .text "B")] 0),
    .addConstraint packing (.expression 0 atMostOne) ""]
where
  atMostOne : Expression Float := {
    terms := ⟨[(.place 0, ⟨(packed 0).participant, 1⟩),
      (.place 1, ⟨(packed 1).participant, 1⟩)], by simp⟩
    constant := -1
    relation := .atMost }

/-- If one of the two is one, the other one is not, and the two are listed so. -/
theorem conflicts_undirected_packs :
    ((reached packs).model packing).Undirected ∧
      (reached packs).conflicting packing (.handle (packed 0)) (.handle (packed 1)) =
        .ok true ∧
      (reached packs).conflicts packing (.handle (packed 1)) = .ok ([0], []) := by
  have rows : ((reached packs).model packing).RowsInRange := by
    simp only [Model.RowsInRange, Row.Over]
    decide +kernel
  obtain ⟨undirected, answers⟩ :=
    conflicts_undirected (by simp [packs, Step.registers]) packing rows
  have first : (reached packs).Reads packing (.handle (packed 0)) ⟨true, .place 0⟩ :=
    ⟨_, rfl, Check.ok_of_toOption (by decide +kernel), rfl⟩
  have second : (reached packs).Reads packing (.handle (packed 1)) ⟨true, .place 1⟩ :=
    ⟨_, rfl, Check.ok_of_toOption (by decide +kernel), rfl⟩
  refine ⟨undirected, (answers.answered _ _ _ _ first second).trans ?_,
    (answers.listed _ _ second).trans ?_⟩
  · exact congrArg Except.ok (by decide +kernel)
  · exact congrArg Except.ok (by decide +kernel)

end Packed

end Workspace

end LinearProgram
