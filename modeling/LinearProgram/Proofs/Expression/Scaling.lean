import LinearProgram.Proofs.Expression.Addition
import LinearProgram.Proofs.Expression.Combination

/-!
# Scaled relations

A related expression stands for the relation of its value to zero.  A multiple of
it has the same relation, whether it is made as a new expression or in place, and
whatever the factor is.  So a positive factor keeps the meaning, and so does any
factor of an equation.  A negative factor exchanges the two sides of an inequality,
and because the relation stays, the multiple stands for the opposite.
-/

namespace LinearProgram

namespace Relation

/-- An amount stands in a relation to zero. -/
def Holds (relation : Relation) (amount : Rat) : Prop :=
  match relation with
  | .affine => False
  | .equal => amount = 0
  | .atMost => amount ≤ 0
  | .atLeast => 0 ≤ amount

instance decidableHolds :
    (relation : Relation) → (amount : Rat) → Decidable (relation.Holds amount)
  | .affine, _ => inferInstanceAs (Decidable False)
  | .equal, amount => inferInstanceAs (Decidable (amount = 0))
  | .atMost, amount => inferInstanceAs (Decidable (amount ≤ 0))
  | .atLeast, amount => inferInstanceAs (Decidable (0 ≤ amount))

/-- The relation with its sides exchanged. -/
def opposite : Relation → Relation
  | .affine => .affine
  | .equal => .equal
  | .atMost => .atLeast
  | .atLeast => .atMost

variable {relation : Relation} {factor : Rat}

theorem holds_mul_of_pos (positive : 0 < factor) (amount : Rat) :
    relation.Holds (factor * amount) ↔ relation.Holds amount := by
  cases relation with
  | affine => exact Iff.rfl
  | equal => exact mul_eq_zero_iff_left positive.ne'
  | atLeast => exact mul_nonneg_iff_of_pos_left positive
  | atMost =>
      change factor * amount ≤ 0 ↔ amount ≤ 0
      rw [← neg_nonneg, ← mul_neg, mul_nonneg_iff_of_pos_left positive, neg_nonneg]

theorem holds_mul_of_neg (negative : factor < 0) (amount : Rat) :
    relation.Holds (factor * amount) ↔ relation.opposite.Holds amount := by
  have positive : 0 < -factor := neg_pos.mpr negative
  cases relation with
  | affine => exact Iff.rfl
  | equal => exact mul_eq_zero_iff_left negative.ne
  | atLeast =>
      change 0 ≤ factor * amount ↔ amount ≤ 0
      rw [← neg_mul_neg, mul_nonneg_iff_of_pos_left positive, neg_nonneg]
  | atMost =>
      change factor * amount ≤ 0 ↔ 0 ≤ amount
      rw [← neg_nonneg, ← neg_mul, mul_nonneg_iff_of_pos_left positive]

end Relation

namespace Expression

variable {expression : Expression Exact} {factor : Rat}
  {outcome : Except (Error Exact) (Expression Exact)}

/-- Values of the variables satisfy an expression: with these, its value stands in its
relation to zero. -/
def Holds (point : Index → Rat) (expression : Expression Exact) : Prop :=
  ∃ amount,
    expression.value (fun participant => some (.finite (point participant.index))) =
      some (.finite amount) ∧ expression.relation.Holds amount

/-- The ways to multiply an expression by a factor, with what they come to. -/
inductive Scaling (expression : Expression Exact) :
    Rat → Except (Error Exact) (Expression Exact) → Prop
  | multiply (factor : Rat) :
      Scaling expression factor (expression.multiply (.number (.finite factor)))
  | divide {divisor : Rat} (nonzero : divisor ≠ 0) :
      Scaling expression (1 / divisor) (expression.divide (.number (.finite divisor)))
  | negate : Scaling expression (-1) expression.negate
  | scale (reckon : Reckoning Exact) (factor : Rat) :
      Scaling expression factor
        (expression.after ((Edit.scale (.number (.finite factor))).apply reckon))

section Values

variable {admitted : Variable → Prop}

theorem value_eq (sound : expression.Sound admitted) (point : Index → Rat) :
    expression.value (fun participant => some (.finite (point participant.index))) =
      some (.finite (expression.contents.total point)) := by
  have known : ∀ entry ∈ expression.terms.toList,
      some (Exact.finite (point entry.2.participant.index)) =
          some (.finite (point entry.1)) ∧
        Scalar.isFinite entry.2.coefficient = true := by
    intro entry present
    rw [sound.terms.filed entry present]
    exact ⟨rfl, sound.terms.finite entry present⟩
  rw [value, Exact.eq_finite_of_isFinite sound.constant]
  exact accumulate_eq _ known

theorem holds_iff (sound : expression.Sound admitted) (point : Index → Rat) :
    expression.Holds point ↔
      expression.relation.Holds (expression.contents.total point) := by
  constructor
  · rintro ⟨amount, reached, holds⟩
    rw [value_eq sound] at reached
    cases reached
    exact holds
  · exact fun holds => ⟨_, value_eq sound point, holds⟩

end Values

section Scalings

variable {admitted : Variable → Prop} {product : Expression Exact}

/-- A multiple is a sum that starts from nothing, or replaces the expression. -/
theorem Scaling.outcome_eq (scaling : expression.Scaling factor outcome) :
    outcome = expression.times (.finite factor) ∨
      outcome = expression.after (Expression.scale (.finite factor)) := by
  cases scaling with
  | multiply factor => exact .inl rfl
  | @divide divisor nonzero =>
      have inverse : (1 : Exact) / .finite divisor = .finite (1 / divisor) :=
        if_neg nonzero
      rw [← inverse]
      exact .inl rfl
  | negate => exact .inl rfl
  | scale reckon factor => exact .inr rfl

theorem Scaling.makes (scaling : expression.Scaling factor outcome)
    (sound : expression.Sound admitted) {reference : ModelRef}
    (owned : ∀ handle, admitted handle → handle.model = reference) :
    Makes admitted outcome (Row.plusMultiple { constant := .finite 0 }
      expression.contents (.finite factor)) := by
  rcases scaling.outcome_eq with rfl | rfl
  · exact makes_times owned sound factor
  · exact makes_scale sound owned factor

/-- A multiple has the relation of the expression, whatever the factor is. -/
theorem Scaling.relation_eq (scaling : expression.Scaling factor outcome)
    (success : outcome = .ok product) : product.relation = expression.relation := by
  rcases scaling.outcome_eq with rfl | rfl
  · obtain ⟨_, _, _, rfl⟩ := parts_of_addExpression (ok_of_after success)
    rfl
  · obtain ⟨_, _, _, rfl⟩ := parts_of_scale (ok_of_after success)
    rfl

/-- If no coefficient is dropped, a multiple has the multiple of the total. -/
theorem total_scaled (sound : expression.Sound admitted)
    (unpruned : ∀ entry ∈ expression.terms.toList,
      Scalar.nearZero (entry.2.coefficient * .finite factor) = false)
    (point : Index → Rat) :
    (Row.plusMultiple { constant := .finite 0 } expression.contents
      (.finite factor)).total point = factor * expression.contents.total point := by
  have empty : Row.Rational ({ constant := Exact.finite 0 } : Row Exact)
      (fun _ => True) := ⟨Row.within_empty _ _, nofun, rfl⟩
  have rational : expression.contents.Rational (fun _ => True) :=
    sound.rational (fun _ _ => trivial)
  have nothing : Row.lost ({ constant := Exact.finite 0 } : Row Exact)
      expression.contents factor = ∅ := by
    rw [Row.lost, Finset.filter_eq_empty_iff]
    intro index occurs
    have listed : index ∈ expression.contents.cells.keys := by
      rcases List.mem_append.mp (List.mem_toFinset.mp occurs) with none | listed
      · cases none
      · exact listed
    obtain ⟨cell, membership, rfl⟩ := List.mem_map.mp listed
    obtain ⟨entry, present, rfl⟩ := List.mem_map.mp membership
    have coefficient : expression.contents.coefficient entry.1 =
        entry.2.coefficient := by
      rw [Row.coefficient, OrderedMap.get?_eq_some_iff.mpr membership, Option.getD_some]
    have zero : Row.coefficient { constant := Exact.finite 0 } entry.1 = 0 := rfl
    have large := unpruned entry present
    rw [Exact.eq_finite_of_isFinite (sound.terms.finite entry present),
      Exact.finite_mul_finite, ← Bool.not_eq_true, Exact.nearZero_finite_iff,
      mul_comm] at large
    rw [Row.residue, coefficient, zero, Exact.zero_eq, Exact.finite_toRat, zero_add]
    exact large
  have start : Row.total point ({ constant := .finite 0 } : Row Exact) = 0 := add_zero 0
  rw [Row.total_plusMultiple empty rational, nothing, Finset.sum_empty, sub_zero, start,
    zero_add]

/-- However an expression is multiplied by a factor other than zero: if no coefficient is
dropped, the multiple has the same relation.  If the factor is positive or the relation
is an equation, the same values satisfy it.  If the factor is negative, those do that
satisfy the expression with the opposite relation. -/
theorem scaling_holds (reachable : expression.Reachable (fun _ => True))
    (nonzero : factor ≠ 0)
    (unpruned : ∀ entry ∈ expression.terms.toList,
      Scalar.nearZero (entry.2.coefficient * .finite factor) = false)
    (scaling : expression.Scaling factor outcome) :
    ∃ product, outcome = .ok product ∧ product.relation = expression.relation ∧
      ∀ point,
        (0 < factor ∨ expression.relation = .equal →
          (product.Holds point ↔ expression.Holds point)) ∧
        (factor < 0 → (product.Holds point ↔
          Holds point { expression with relation := expression.relation.opposite })) := by
  obtain ⟨reference, sound⟩ := reachable.sound.exists_model
  obtain ⟨product, made, productSound, contents⟩ :=
    scaling.makes sound (fun _ own => own)
  have relation := scaling.relation_eq made
  have turned : Sound (fun handle => handle.model = reference)
      { expression with relation := expression.relation.opposite } :=
    ⟨sound.terms, sound.constant⟩
  refine ⟨product, made, relation, fun point => ?_⟩
  rw [holds_iff productSound, holds_iff sound, holds_iff turned, relation, contents,
    total_scaled sound unpruned]
  constructor
  · rintro (positive | equation)
    · exact Relation.holds_mul_of_pos positive _
    · rw [equation]
      exact mul_eq_zero_iff_left nonzero
  · exact fun negative => Relation.holds_mul_of_neg negative _

end Scalings

section Bounded

private def boundedVariable : Variable := { model := ⟨0, "m"⟩, index := .place 0 }

/-- The variable is at most ten. -/
private def bounded : Expression Exact where
  terms := ⟨[(.place 0, ⟨boundedVariable.participant, .finite 1⟩)], by decide⟩
  constant := .finite (-10)
  relation := .atMost

/-- The bound with the signs changed and the relation kept. -/
private def boundedNegated : Expression Exact where
  terms := ⟨[(.place 0, ⟨boundedVariable.participant, .finite (-1)⟩)], by decide⟩
  constant := .finite 10
  relation := .atMost

private theorem reachable_bounded : bounded.Reachable (fun _ => True) := by
  have related : (Operator.relate .atMost).apply (.handle boundedVariable)
      (.number (.finite 10)) = .ok bounded := Check.ok_of_toOption (by decide +kernel)
  refine .applied (fun _ _ => trivial) ?_ (fun _ _ => trivial) ?_ related
  all_goals
    intro number other same
    cases same

private theorem bounded_holds : bounded.Holds (fun _ => 5) :=
  ⟨-5, by decide +kernel, by decide +kernel⟩

/-- Five is at most ten, but if the signs are changed, it is not any more. -/
theorem negate_not_holds : bounded.Holds (fun _ => 5) ∧
    ∃ product, bounded.negate = .ok product ∧ ¬product.Holds (fun _ => 5) := by
  refine ⟨bounded_holds, boundedNegated, Check.ok_of_toOption (by decide +kernel), ?_⟩
  rintro ⟨amount, reached, below⟩
  have five : boundedNegated.value (fun _ => some (.finite 5)) = some (.finite 5) := by
    decide +kernel
  cases five.symm.trans reached
  exact absurd below (by decide +kernel)

/-- Five satisfies the double of the bound as well. -/
theorem scaling_holds_bounded : ∃ product,
    bounded.multiply (.number (.finite 2)) = .ok product ∧
      product.Holds (fun _ => 5) := by
  have scaling : bounded.Scaling 2 (bounded.multiply (.number (.finite 2))) :=
    .multiply 2
  obtain ⟨product, made, _, same⟩ :=
    scaling_holds reachable_bounded (by norm_num) (by decide +kernel) scaling
  exact ⟨product, made, ((same _).1 (.inl (by norm_num))).mpr bounded_holds⟩

end Bounded

end Expression

end LinearProgram
