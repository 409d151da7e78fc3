import LinearProgram.Proofs.Expression.Storage

/-!
# Contents of expressions

An expression keeps a handle with every coefficient, and a row does not.  Without
its handles an expression is a row, and adding a term to it is inserting into
that row: the same sums are formed, the same cells are dropped, and the others
keep their places.  So what happens to an expression can be followed on a row,
and storing an expression is nothing but leaving out its handles.
-/

namespace LinearProgram

variable {α : Type} [Scalar α]

/-- The constant and the coefficients of an expression, by index. -/
def Expression.contents (expression : Expression α) : Row α where
  constant := expression.constant
  cells := expression.terms.map Term.coefficient

/-- The row after multiples of cells were added to it, one after the other. -/
def Row.insertScaled (row : Row α) (cells : List (Index × α)) (factor : α) :
    Row α :=
  cells.foldl (fun row cell => row.insert cell.1 (cell.2 * factor)) row

theorem Row.insertScaled_withConstant (row : Row α) (constant : α)
    (cells : List (Index × α)) (factor : α) :
    insertScaled { row with constant } cells factor =
      { row.insertScaled cells factor with constant } := by
  induction cells generalizing row with
  | nil => rfl
  | cons cell rest induction => exact induction (row.insert cell.1 (cell.2 * factor))

section Terms

variable {terms result : Terms α} {participant : Participant} {coefficient : α}

/-- Terms without their handles, as the cells of a row. -/
def Terms.asRow (terms : Terms α) (constant : α) : Row α where
  constant
  cells := terms.map Term.coefficient

@[simp]
theorem Terms.coefficient_asRow (terms : Terms α) (constant : α) (index : Index) :
    (terms.asRow constant).coefficient index = terms.coefficient index := by
  rw [Row.coefficient, Terms.asRow, OrderedMap.get?_map, Terms.coefficient]

/-- A term is added where a cell would be written. -/
theorem Terms.asRow_add (constant : α)
    (success : terms.add participant coefficient = .ok result) :
    result.asRow constant =
      (terms.asRow constant).insert participant.index coefficient := by
  obtain ⟨_, _, _, rfl⟩ := add_eq_ok_iff.mp success
  rw [Row.insert, coefficient_asRow]
  split
  · simp only [asRow, OrderedMap.map_erase]
  · simp only [asRow, OrderedMap.map_insert]

theorem Terms.asRow_addScaled {added : List (Index × Term α)} {factor : α}
    (filed : ∀ entry ∈ added, entry.2.participant.index = entry.1)
    (constant : α)
    (success : terms.addScaled (added.map Prod.snd) factor = .ok result) :
    result.asRow constant = (terms.asRow constant).insertScaled
      (added.map (fun entry => (entry.1, entry.2.coefficient))) factor := by
  induction added generalizing terms with
  | nil =>
      cases success
      rfl
  | cons entry rest induction =>
      obtain ⟨next, stepped, remaining⟩ := Check.ok_of_bind success
      have first := asRow_add constant stepped
      rw [filed entry List.mem_cons_self] at first
      have others := induction
        (fun other membership => filed other (List.mem_cons_of_mem _ membership))
        remaining
      rw [others, first]
      rfl

end Terms

namespace Expression

variable {expression other result : Expression α}

@[simp]
theorem coefficient_contents (expression : Expression α) (index : Index) :
    expression.contents.coefficient index = expression.terms.coefficient index :=
  expression.terms.coefficient_asRow expression.constant index

omit [Scalar α] in
theorem keys_contents (expression : Expression α) :
    expression.contents.cells.keys = expression.terms.keys := by
  simp [OrderedMap.keys, contents, OrderedMap.map]

theorem contents_addTerm {participant : Participant} {coefficient : α}
    (success : addTerm participant coefficient expression = .ok () result) :
    result.contents =
      expression.contents.insert participant.index coefficient := by
  obtain ⟨terms, added, rfl⟩ := terms_of_addTerm success
  exact Terms.asRow_add expression.constant added

theorem contents_addExpression {factor : α}
    (filed : ∀ entry ∈ other.terms.toList,
      entry.2.participant.index = entry.1)
    (success : addExpression other factor expression = .ok () result) :
    result.contents =
      { expression.contents.insertScaled other.contents.cells.toList factor with
        constant := expression.constant + other.constant * factor } := by
  obtain ⟨terms, added, _, rfl⟩ := parts_of_addExpression success
  have cells := Terms.asRow_addScaled filed expression.constant added
  exact congrArg (fun row : Row α => { row with
    constant := expression.constant + other.constant * factor }) cells

theorem contents_scale {factor : α}
    (filed : ∀ entry ∈ expression.terms.toList,
      entry.2.participant.index = entry.1)
    (success : scale factor expression = .ok () result) :
    result.contents =
      Row.insertScaled { constant := expression.constant * factor }
        expression.contents.cells.toList factor := by
  obtain ⟨terms, added, _, rfl⟩ := parts_of_scale success
  exact Terms.asRow_addScaled filed (expression.constant * factor) added

end Expression

namespace Row

variable {row : Row α} {expression : Expression α}

/-- Cells of different variables are written one after the other as they are. -/
private theorem foldl_insert_distinct [NeutralZero α] (constant : α)
    {cells : List (Index × α)} (distinct : (cells.map Prod.fst).Nodup)
    (large : ∀ cell ∈ cells, Scalar.nearZero cell.2 = false) :
    cells.foldl (fun row cell => row.insert cell.1 cell.2)
      ({ constant } : Row α) = { constant, cells := ⟨cells, distinct⟩ } := by
  -- From the end, because what is written last is new and comes last.
  induction cells using List.reverseRecOn with
  | nil => rfl
  | append_singleton earlier last induction =>
      have parts := distinct
      rw [List.map_append, List.nodup_append] at parts
      obtain ⟨earlierDistinct, _, apart⟩ := parts
      have written := induction earlierDistinct
        (fun cell membership => large cell (List.mem_append_left _ membership))
      have lastLarge := large last (by simp)
      have absent : last.1 ∉ earlier.map Prod.fst :=
        fun listed => apart _ listed _ (by simp) rfl
      have sum : Row.coefficient
          ({ constant, cells := ⟨earlier, earlierDistinct⟩ } : Row α) last.1 +
            last.2 = last.2 := by
        rw [Row.coefficient, OrderedMap.get?_eq_none_iff.mpr absent,
          Option.getD_none, NeutralZero.zero_add_of_large lastLarge]
      rw [List.foldl_append, written]
      simp only [List.foldl_cons, List.foldl_nil, Row.insert, sum, lastLarge,
        Bool.false_eq_true, if_false]
      congr 1
      exact OrderedMap.ext (OrderedMap.toList_insert_of_not_mem absent)

/-- A row becomes itself when its cells are added to nothing as they are. -/
theorem insertScaled_neutral [NeutralZero α] (constant : α) {factor : α}
    (neutral : ∀ value : α, value * factor = value)
    {cells : OrderedMap Index α}
    (large : ∀ cell ∈ cells.toList, Scalar.nearZero cell.2 = false) :
    insertScaled { constant } cells.toList factor = { constant, cells } := by
  unfold insertScaled
  simp only [neutral]
  exact foldl_insert_distinct constant cells.distinct large

/-- Stored as a row, an expression loses its handles and nothing else. -/
theorem ofExpression_eq_contents [NeutralZero α] {admitted : Variable → Prop}
    (sound : Expression.Sound admitted expression) :
    ofExpression expression = expression.contents := by
  have filed : ∀ (listed : List (Index × Term α)) (start : Row α),
      (∀ entry ∈ listed, entry.2.participant.index = entry.1) →
      (listed.map Prod.snd).foldl (fun row term =>
        row.insert term.participant.index term.coefficient) start =
      (listed.map (fun entry => (entry.1, entry.2.coefficient))).foldl
        (fun row cell => row.insert cell.1 cell.2) start := by
    intro listed
    induction listed with
    | nil => exact fun _ _ => rfl
    | cons entry rest induction =>
        intro start filed
        simp only [List.map_cons, List.foldl_cons]
        rw [filed entry List.mem_cons_self]
        apply induction
        exact fun other membership =>
          filed other (List.mem_cons_of_mem _ membership)
  refine (filed expression.terms.toList _ sound.terms.filed).trans ?_
  apply foldl_insert_distinct
  intro cell membership
  obtain ⟨entry, present, rfl⟩ := List.mem_map.mp membership
  exact sound.terms.large entry present

omit [Scalar α] in
/-- An expression that is read off a row has its contents. -/
theorem ReadAs.contents_eq {reference : ModelRef}
    (reads : row.ReadAs reference expression) : expression.contents = row := by
  have cells : expression.contents.cells = row.cells := by
    apply OrderedMap.ext
    change expression.terms.toList.map _ = _
    rw [reads.terms, List.map_map]
    exact List.map_id _
  obtain ⟨constant, kept⟩ := row
  cases cells
  cases reads.constant
  rfl

end Row

end LinearProgram
