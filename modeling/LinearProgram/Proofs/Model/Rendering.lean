import LinearProgram.Proofs.Model.ByRows
import LinearProgram.Proofs.Model.Names
import LinearProgram.Proofs.Text.Wrapping

/-!
# Constraints as texts

A constraint is written as its name, its terms, its relation and its right hand
side.  Of these only the terms are divided into lines, and nothing but breaks
comes between them.
-/

namespace LinearProgram.Model

open Text (Lines units)

/-- A constraint as text, given the text of its terms. -/
def constraintText (model : Model Float) (row : Nat) (terms : String) : String :=
  model.constraintName (.place row) ++ ":" ++ terms ++ " " ++
    (model.relation (.place row)).sign ++ " " ++
      Scalar.text (model.rightHandSide (.place row))

/-- The terms of an expression as text: to each a signed coefficient and the name
of its variable. -/
def termTexts (model : Model Float) (expression : Expression Float) :
    List String :=
  expression.termList.map (Expression.renderItem
    (fun participant => model.variableName participant.index))

/-- A constraint, which is read as the expression, is written in these lines. -/
structure WrittenIn (model : Model Float) (row : Nat)
    (expression : Expression Float) (lines : Lines) : Prop where
  read : model.constraintExpression (.place row) = .ok expression
  contents : (model.row (.place row)).ReadAs model.reference expression
  items : lines.items = model.termTexts expression
  named : model.constraintName (.place row) ≠ ""
  text : model.renderConstraint (.place row) =
    .ok (model.constraintText row (lines.text "\n\t"))
  unwrapped : model.constraintText row (lines.text "") =
    model.constraintText row (String.join (model.termTexts expression))
  within : ∀ line ∈ lines.closed ++ [lines.last],
    units (String.join line.dropLast) ≤ 75
  beyond : ∀ line ∈ lines.closed, 75 < units (String.join line)
  /-- No other lines of these terms would be greedy. -/
  only : ∀ other : Lines, other.items = model.termTexts expression →
    other.Greedy 75 → other = lines

theorem constraintName_ne_empty {model : Model Float} (named : model.Named)
    {row : Nat} (present : row < model.rowCount) :
    model.constraintName (.place row) ≠ "" := by
  have inside : row < model.rowNames.names.length := by
    simpa [rowNames, rowCount] using present
  rw [constraintName_place, List.getElem?_eq_getElem inside]
  exact named.rows.nonempty _ (List.getElem_mem inside)

/-- What is written of a constraint that can be read. -/
theorem renderConstraint_eq {model : Model Float} {row : Nat}
    {expression : Expression Float}
    (named : model.constraintName (.place row) ≠ "")
    (related : model.relation (.place row) ≠ .affine)
    (read : model.constraintExpression (.place row) = .ok expression)
    (contents : (model.row (.place row)).ReadAs model.reference expression)
    (relation : expression.relation = model.relation (.place row)) :
    model.renderConstraint (.place row) = .ok (model.constraintText row
      (Text.wrap 75 (model.termTexts expression))) := by
  rw [renderConstraint, read]
  simp only [bind, Except.bind, Expression.renderConstraint, relation,
    contents.constant, if_neg related, if_neg named]
  rfl

/-- In every state, a constraint with a relation and finite numbers, over variables that
have handles, is written as its name, its terms in order, its relation and its right
hand side, with a break after every line of terms that has grown past 75 units and
nowhere else. -/
theorem renderConstraint_lines {reference : ModelRef} {direction : Direction}
    {changes : List (Change Float)} {row : Nat}
    (present : row < (reached reference direction changes).rowCount)
    (related : (reached reference direction changes).relation (.place row) ≠
      .affine)
    (handled : ∀ index ∈ ((reached reference direction changes).row
      (.place row)).cells.keys, (reached reference direction changes).HasHandle index)
    (finite : ((reached reference direction changes).row (.place row)).Finite) :
    ∃ expression lines,
      (reached reference direction changes).WrittenIn row expression lines := by
  have large := row_of_forall (fun row => row.Within (fun _ => True))
    (large_reached reference direction changes) (Row.within_empty 0 _) (.place row)
  have within : ((reached reference direction changes).row (.place row)).Within
      (reached reference direction changes).HasHandle :=
    fun cell membership => ⟨handled _ (List.mem_map_of_mem membership),
      (large cell membership).2⟩
  have named := constraintName_ne_empty (named_reached reference direction changes)
    present
  obtain ⟨expression, read, contents, relation⟩ :=
    exists_constraintReading present within finite.cells finite.constant
  obtain ⟨lines, items, greedy, written⟩ := Text.exists_lines 75
    ((reached reference direction changes).termTexts expression)
  refine ⟨expression, lines, read, contents, items, named, ?_, ?_,
    greedy.within_all, greedy.beyond, ?_⟩
  · rw [renderConstraint_eq named related read contents relation, ← written]
    rfl
  · rw [lines.text_unmarked, items]
  · intro other same another
    exact greedy.unique another (same.trans items.symm)

section Lengthy

private def lengthyName : String := String.ofList (List.replicate 80 'x')

private def lengthyHandle (position : Nat) : Participant :=
  (ModelRef.variable ⟨0, "m"⟩ (.place position)).participant

private def lengthyExpression : Expression Float where
  terms := ⟨[(.place 0, ⟨lengthyHandle 0, 1⟩), (.place 1, ⟨lengthyHandle 1, -2⟩)],
    by simp⟩
  constant := -3
  relation := .atMost

private def lengthyChanges : List (Change Float) :=
  [.addVariable (.record [("name", .text lengthyName)] 0),
    .addVariable (.record [("name", .text "y")] 0),
    .addConstraint lengthyExpression "limit"]

/-- A variable with a long name ends a line. -/
theorem renderConstraint_lines_lengthy :
    (∃ expression lines,
      (reached ⟨0, "m"⟩ .minimize lengthyChanges).WrittenIn 0 expression lines) ∧
    ((reached ⟨0, "m"⟩ .minimize lengthyChanges).renderConstraint
      (.place 0)).toOption =
        some ("limit: +1 " ++ lengthyName ++ "\n\t" ++ " -2 y <= 3") := by
  refine ⟨renderConstraint_lines (by decide +kernel) (by decide +kernel)
    (by decide +kernel) ?finite, by decide +kernel⟩
  case finite =>
    have cells : ∀ cell ∈ ((reached ⟨0, "m"⟩ .minimize lengthyChanges).row
        (.place 0)).cells.toList, Scalar.isFinite cell.2 = true := by
      decide +kernel
    have constant : Scalar.isFinite ((reached ⟨0, "m"⟩ .minimize
        lengthyChanges).row (.place 0)).constant = true := by
      decide +kernel
    exact ⟨cells, constant⟩

end Lengthy

end LinearProgram.Model
