import LinearProgram.Model.Storage
import LinearProgram.Proofs.Expression.Participants
import LinearProgram.Proofs.Model.Handles

/-!
# Rows read back

A row of finite numbers can always be read as an expression, as long as its cells
belong to variables that have handles.  No term is lost or changed on the way: the
variables are distinct, so every cell makes a term of its own, and a coefficient
that is large enough to be stored is its own sum with zero.
-/

namespace LinearProgram

variable {α : Type} [Scalar α]

omit [Scalar α] in
/-- Terms of a model admit any other term of it. -/
theorem Terms.accepts_owner {terms : Terms α} {reference : ModelRef}
    (owned : terms.Over (fun other => other.owner = .model reference)) :
    terms.owner?.any (fun owner => !owner.same (.model reference)) = false := by
  rw [owner?, OrderedMap.first?, OrderedMap.values, List.head?_map]
  cases oldest : terms.toList.head? with
  | none => rfl
  | some entry => simp [owned entry (List.mem_of_head? oldest)]

/-- A new variable of the model that owns the other terms gets a term with just
the coefficient that is added. -/
private theorem Terms.add_of_new [NeutralZero α] {terms : Terms α}
    {reference : ModelRef} {participant : Participant} {coefficient : α}
    (owned : terms.Over (fun other => other.owner = .model reference))
    (owner : participant.owner = .model reference)
    (new : participant.index ∉ terms.keys)
    (finite : Scalar.isFinite coefficient = true)
    (large : Scalar.nearZero coefficient = false) :
    terms.add participant coefficient =
      .ok (terms.insert participant.index ⟨participant, coefficient⟩) := by
  have absent : terms.get? participant.index = none :=
    OrderedMap.get?_eq_none_iff.mpr new
  have zero : terms.coefficient participant.index = 0 := by
    rw [Terms.coefficient, absent]
    rfl
  apply Terms.add_eq_ok_iff.mpr
  rw [zero, NeutralZero.zero_add_of_large large, absent, owner]
  exact ⟨Terms.accepts_owner owned, finite, finite, if_neg (by simp [large])⟩

namespace Row

/-- The numbers in the cells of a row are finite. -/
def FiniteCells (row : Row α) : Prop :=
  ∀ cell ∈ row.cells.toList, Scalar.isFinite cell.2 = true

section Reading

variable {α : Type} {row : Row α} {reference : ModelRef}
  {expression : Expression α}

/-- The term that a cell stands for, with the handle that a model keeps. -/
def termOf (reference : ModelRef) (index : Index) (coefficient : α) : Term α :=
  ⟨(reference.variable index).participant, coefficient⟩

/-- An expression says what a row says. -/
structure ReadAs (row : Row α) (reference : ModelRef)
    (expression : Expression α) : Prop where
  terms : expression.terms.toList = row.cells.toList.map
    (fun cell => (cell.1, termOf reference cell.1 cell.2))
  constant : expression.constant = row.constant

/-- All terms of an expression that is read belong to the model. -/
theorem ReadAs.over (reads : row.ReadAs reference expression) :
    expression.Over (fun other => other.owner = .model reference) := by
  intro entry membership
  rw [reads.terms] at membership
  obtain ⟨cell, _, rfl⟩ := List.mem_map.mp membership
  rfl

theorem ReadAs.size_eq (reads : row.ReadAs reference expression) :
    expression.size = row.cells.size := by
  rw [Expression.size, OrderedMap.size, reads.terms, List.length_map]
  rfl

theorem ReadAs.term?_eq (reads : row.ReadAs reference expression)
    (index : Index) :
    expression.term? (reference.variable index).participant =
      (row.cells.get? index).map (termOf reference index) := by
  have found := OrderedMap.get?_of_entries reads.terms index
  change (expression.terms.get? index).filter _ = _
  rw [found]
  cases row.cells.get? index with
  | none => rfl
  | some coefficient => simp [termOf, Variable.participant, ModelRef.variable]

theorem ReadAs.has_eq (reads : row.ReadAs reference expression)
    (index : Index) :
    expression.has (reference.variable index).participant =
      row.cells.contains index := by
  rw [Expression.has, reads.term?_eq, Option.isSome_map]
  rfl

theorem ReadAs.coefficient_eq [Scalar α]
    (reads : row.ReadAs reference expression) (index : Index) :
    expression.coefficient (reference.variable index).participant =
      row.coefficient index := by
  have same : Term.coefficient ∘ termOf reference index = (id : α → α) := rfl
  rw [Expression.coefficient, reads.term?_eq, Option.map_map, same,
    Option.map_id]
  rfl

end Reading

/-- What can be read of a row has a finite constant, and the relation that was
asked for. -/
theorem parts_of_toExpression {α : Type} [Scalar α] {row : Row α}
    {handles : List Variable} {relation : Relation} {result : Expression α}
    (success : row.toExpression handles relation = .ok result) :
    Scalar.isFinite row.constant = true ∧ result.relation = relation := by
  obtain ⟨constant, accepted, added⟩ := Check.ok_of_bind success
  obtain ⟨terms, _, written⟩ := Check.ok_of_bind added
  cases written
  exact ⟨(isFinite_of_finite accepted).2, rfl⟩

section Success

variable [NeutralZero α] {row : Row α} {reference : ModelRef} {handles : List Variable}

/-- Cells of different variables are added one after the other as they are. -/
private theorem exists_terms (reference : ModelRef) {cells : List (Index × α)}
    (distinct : (cells.map Prod.fst).Nodup)
    (finite : ∀ cell ∈ cells, Scalar.isFinite cell.2 = true)
    (large : ∀ cell ∈ cells, Scalar.nearZero cell.2 = false) :
    ∃ terms : Terms α,
      (cells.map (fun cell =>
        ((reference.variable cell.1).participant, cell.2))).foldlM
          (fun sum term => Terms.add sum term.1 term.2) OrderedMap.empty =
        .ok terms ∧
      terms.toList =
        cells.map (fun cell => (cell.1, termOf reference cell.1 cell.2)) := by
  induction cells using List.reverseRecOn with
  | nil => exact ⟨OrderedMap.empty, rfl, rfl⟩
  | append_singleton earlier last induction =>
      rw [List.map_append, List.nodup_append] at distinct
      obtain ⟨earlierDistinct, _, apart⟩ := distinct
      obtain ⟨terms, added, entries⟩ := induction earlierDistinct
        (fun cell membership => finite cell (List.mem_append_left _ membership))
        (fun cell membership => large cell (List.mem_append_left _ membership))
      have keys : terms.keys = earlier.map Prod.fst := by
        rw [OrderedMap.keys, entries, List.map_map]
        rfl
      have new : last.1 ∉ terms.keys := by
        rw [keys]
        intro present
        exact apart _ present _ (by simp) rfl
      have owned : terms.Over (fun other => other.owner = .model reference) := by
        intro entry membership
        rw [entries] at membership
        obtain ⟨cell, _, rfl⟩ := List.mem_map.mp membership
        rfl
      have step := Terms.add_of_new owned
        (show (reference.variable last.1).participant.owner = _ from rfl) new
        (finite last (by simp)) (large last (by simp))
      refine ⟨terms.insert last.1 (termOf reference last.1 last.2), ?_, ?_⟩
      · rw [List.map_append, List.foldlM_append, added]
        simp only [List.map_cons, List.map_nil, List.foldlM_cons,
          List.foldlM_nil, bind_pure]
        exact step
      · rw [OrderedMap.toList_insert_of_not_mem new, entries, List.map_append]
        rfl

/-- A row can be read if its cells have handles and its numbers are finite. -/
theorem exists_readAs (kept : row.Within (reference.Keeps handles))
    (finite : row.FiniteCells)
    (constant : Scalar.isFinite row.constant = true) (relation : Relation) :
    ∃ expression, row.toExpression handles relation = .ok expression ∧
      row.ReadAs reference expression := by
  obtain ⟨terms, added, entries⟩ := exists_terms reference row.cells.distinct
    finite (fun cell membership => (kept cell membership).2)
  refine ⟨⟨terms, row.constant, relation⟩, ?_, entries, rfl⟩
  rw [toExpression_eq_assemble (fun cell membership => (kept cell membership).1),
    Expression.assemble, added, LinearProgram.finite, if_pos constant]
  rfl

end Success

end Row

end LinearProgram
