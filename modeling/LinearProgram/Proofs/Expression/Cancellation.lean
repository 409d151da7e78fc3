import LinearProgram.Proofs.Expression.Equality
import LinearProgram.Proofs.Expression.Reachable

/-!
# Sums and differences, index by index

What a sum states at an index depends on what its two operands state there, and on nothing else.
So for expressions of one model a sum is the same in either order, but for the order of its terms.
A difference has no terms exactly if the operands are equal, up to their constants and relations.
-/

namespace LinearProgram.Expression

variable {admitted : Variable → Prop} {expression other result : Expression Float}
  {factor : Float}

section Stated

variable {index : Index} {contents : Owner × Float}

/-- The number that an expression states at an index, zero if it states none. -/
theorem coefficient_eq_stated (expression : Expression Float) (index : Index) :
    expression.terms.coefficient index = ((expression.stated index).map Prod.snd).getD 0 := by
  unfold Terms.coefficient stated
  cases expression.terms.get? index <;> rfl

theorem owner?_of_stated (sound : expression.Sound admitted)
    (found : expression.stated index = some contents) :
    expression.owner? = some contents.1 := by
  obtain ⟨term, membership, rfl⟩ := exists_term_of_stated found
  exact owner?_eq_of_mem sound (List.mem_map_of_mem membership)

theorem isConstant_iff_stated :
    expression.isConstant = true ↔ ∀ index, expression.stated index = none := by
  simp only [stated_eq_none_iff, isConstant, OrderedMap.size, OrderedMap.keys, beq_iff_eq,
    List.length_eq_zero_iff]
  constructor
  · intro empty index listed
    rw [empty] at listed
    cases listed
  · intro none
    cases listed : expression.terms.toList with
    | nil => rfl
    | cons entry rest =>
        rw [listed] at none
        exact absurd List.mem_cons_self (none entry.1)

theorem not_isConstant_of_stated (found : expression.stated index = some contents) :
    expression.isConstant ≠ true := by
  intro constant
  rw [isConstant_iff_stated.mp constant index] at found
  cases found

/-- Two expressions of which neither has another model than the other one. -/
def OneModel (expression other : Expression Float) : Prop :=
  expression.isConstant = true ∨ other.isConstant = true ∨ expression.owner? = other.owner?

theorem OneModel.symm (oneModel : OneModel expression other) : OneModel other expression := by
  rcases oneModel with constant | constant | owner
  · exact .inr (.inl constant)
  · exact .inl constant
  · exact .inr (.inr owner.symm)

/-- Of one model are the terms at each index. -/
theorem OneModel.owner_eq (oneModel : OneModel expression other)
    (sound : expression.Sound admitted) (otherSound : other.Sound admitted)
    {otherContents : Owner × Float} {otherIndex : Index}
    (found : expression.stated index = some contents)
    (otherFound : other.stated otherIndex = some otherContents) :
    contents.1 = otherContents.1 := by
  rcases oneModel with constant | constant | owner
  · exact absurd constant (not_isConstant_of_stated found)
  · exact absurd constant (not_isConstant_of_stated otherFound)
  · rw [owner?_of_stated sound found, owner?_of_stated otherSound otherFound] at owner
    exact Option.some.inj owner

end Stated

section Combining

/-- What becomes of what is stated at an index when a multiple of something else is added. -/
def combined (present added : Option (Owner × Float)) (factor : Float) :
    Option (Owner × Float) :=
  match added with
  | none => present
  | some contents =>
    let sum := (present.map Prod.snd).getD 0 + contents.2 * factor
    if Scalar.nearZero sum then none else some ((present.map Prod.fst).getD contents.1, sum)

/-- A multiple of an expression is added if no other model and no infinite number comes in. -/
theorem exists_addExpression_iff_listed (sound : expression.Sound admitted)
    (otherSound : other.Sound admitted) (finite : Scalar.isFinite factor = true) :
    (∃ result, addExpression other factor expression = .ok () result) ↔
      OneModel expression other ∧ Scalar.isFinite (other.constant * factor) = true ∧
        Scalar.isFinite (expression.constant + other.constant * factor) = true ∧
        ∀ entry ∈ other.terms.toList, Scalar.isFinite (entry.2.coefficient * factor) = true ∧
          Scalar.isFinite (expression.terms.coefficient entry.1 +
            entry.2.coefficient * factor) = true := by
  have listed : OneModel expression other →
      ((∃ terms, expression.terms.addScaled other.termList factor = .ok terms) ↔
        ∀ entry ∈ other.terms.toList, Scalar.isFinite (entry.2.coefficient * factor) = true ∧
          Scalar.isFinite (expression.terms.coefficient entry.1 +
            entry.2.coefficient * factor) = true) := by
    intro oneModel
    obtain ⟨reference, ours, theirs⟩ := exists_common_owner sound otherSound oneModel
    exact Terms.exists_addScaled_iff ours theirs otherSound.terms.filed other.terms.distinct
  constructor
  · rintro ⟨result, success⟩
    obtain ⟨_, accepted, product, constant, terms, addition, _⟩ :=
      addExpression_eq_ok_iff.mp success
    have oneModel := (requireOneModel_eq_ok_iff sound otherSound).mp accepted
    exact ⟨oneModel, product, constant, (listed oneModel).mp ⟨terms, addition⟩⟩
  · rintro ⟨oneModel, product, constant, each⟩
    have accepted := (requireOneModel_eq_ok_iff sound otherSound).mpr oneModel
    obtain ⟨terms, addition⟩ := (listed oneModel).mpr each
    exact ⟨_, addExpression_eq_ok_iff.mpr
      ⟨finite, accepted, product, constant, terms, addition, rfl⟩⟩

private theorem map_stated_merged (present added : Option (Term Float)) (factor : Float) :
    (Terms.merged present added factor).map Term.stated =
      combined (present.map Term.stated) (added.map Term.stated) factor := by
  cases added with
  | none => rfl
  | some term =>
      cases present with
      | none => exact apply_ite (Option.map Term.stated) ..
      | some old => exact apply_ite (Option.map Term.stated) ..

/-- What an expression states after a multiple of another one was added. -/
theorem stated_addExpression (otherSound : other.Sound admitted)
    (success : addExpression other factor expression = .ok () result) (index : Index) :
    result.stated index = combined (expression.stated index) (other.stated index) factor := by
  obtain ⟨terms, addition, _, rfl⟩ := parts_of_addExpression success
  have read : terms.get? index =
      Terms.merged (expression.terms.get? index) (other.terms.get? index) factor :=
    Terms.get?_addScaled otherSound.terms.filed other.terms.distinct addition index
  rw [stated, read, map_stated_merged]
  rfl

end Combining

section Cancelling

variable {first second : Option (Owner × Float)}

/-- What is stated cancels out against what is close to it, and nothing else does. -/
private theorem combined_eq_none_iff
    (large : ∀ contents ∈ first, Scalar.nearZero contents.2 = false)
    (otherLarge : ∀ contents ∈ second, Scalar.nearZero contents.2 = false)
    (owner : ∀ contents ∈ first, ∀ counterpart ∈ second, contents.1 = counterpart.1) :
    combined first second (-1) = none ↔ Option.Rel Near first second := by
  cases second with
  | none =>
      cases first with
      | none => exact iff_of_true rfl .none
      | some contents => exact iff_of_false nofun nofun
  | some counterpart =>
      cases first with
      | none =>
          refine iff_of_false ?_ nofun
          have stays := otherLarge counterpart rfl
          simp [combined, Double.mul_neg_one, Double.nearZero_zero_add, Double.nearZero_neg, stays]
      | some contents =>
          have owners := owner contents rfl counterpart rfl
          simp only [combined, Option.map_some, Option.getD_some, Double.mul_neg_one,
            Double.add_neg, ite_eq_left_iff, Bool.not_eq_true, reduceCtorEq, imp_false,
            Bool.not_eq_false, ← Double.close_eq_nearZero]
          constructor
          · exact fun near => .some ⟨owners, near⟩
          · intro related
            cases related with
            | some near => exact near.2

private theorem oneModel_of_near (sound : expression.Sound admitted)
    (otherSound : other.Sound admitted)
    (each : ∀ index, Option.Rel Near (expression.stated index) (other.stated index)) :
    OneModel expression other := by
  by_cases constant : expression.isConstant = true
  · exact .inl constant
  · rw [isConstant_iff_stated] at constant
    push Not at constant
    obtain ⟨index, present⟩ := constant
    obtain ⟨contents, found⟩ := Option.ne_none_iff_exists'.mp present
    have related := each index
    rw [found] at related
    generalize sought : other.stated index = second at related
    cases related with
    | some near =>
        right; right
        rw [owner?_of_stated sound found, owner?_of_stated otherSound sought, near.1]

/-- Expressions with nearly the same terms and constants can be subtracted. -/
private theorem exists_difference (sound : expression.Sound admitted)
    (otherSound : other.Sound admitted)
    (constant : close expression.constant other.constant = true)
    (each : ∀ index, Option.Rel Near (expression.stated index) (other.stated index)) :
    ∃ difference, addExpression other (-1) expression = .ok () difference := by
  rw [exists_addExpression_iff_listed sound otherSound (by decide)]
  refine ⟨oneModel_of_near sound otherSound each, ?_, ?_, ?_⟩
  · rw [Double.mul_neg_one, Double.isFinite_neg]
    exact otherSound.constant
  · rw [Double.mul_neg_one, Double.add_neg]
    rw [Double.close_eq_nearZero] at constant
    exact Double.isFinite_of_nearZero constant
  · intro entry membership
    have related := each entry.1
    rw [stated_of_mem membership] at related
    generalize found : expression.stated entry.1 = first at related
    cases related with
    | some near =>
        have small := near.2
        rw [Double.close_eq_nearZero] at small
        rw [coefficient_eq_stated, found, Double.mul_neg_one, Double.isFinite_neg, Double.add_neg]
        exact ⟨otherSound.terms.finite entry membership, Double.isFinite_of_nearZero small⟩

/-- Two expressions are equal exactly if they have one relation and their difference exists and is
nearly zero, without a term. -/
theorem equals_iff_cancels (sound : expression.Sound admitted)
    (otherSound : other.Sound admitted) :
    expression.equals other = true ↔ expression.relation = other.relation ∧
      ∃ difference, addExpression other (-1) expression = .ok () difference ∧
        difference.isConstant = true ∧
        Scalar.magnitude difference.constant ≤ Scalar.epsilon := by
  have constants : ∀ {difference},
      addExpression other (-1) expression = .ok () difference →
        (Scalar.magnitude difference.constant ≤ Scalar.epsilon ↔
          close expression.constant other.constant = true) := by
    intro difference success
    obtain ⟨terms, _, _, rfl⟩ := parts_of_addExpression success
    rw [Double.magnitude_le_epsilon_iff, Double.mul_neg_one, Double.add_neg,
      Double.close_eq_nearZero]
  have terms : ∀ {difference},
      addExpression other (-1) expression = .ok () difference →
        OneModel expression other →
        (difference.isConstant = true ↔
          ∀ index, Option.Rel Near (expression.stated index) (other.stated index)) := by
    intro difference success oneModel
    rw [isConstant_iff_stated]
    refine forall_congr' fun index => ?_
    rw [stated_addExpression otherSound success]
    exact combined_eq_none_iff (fun contents found => (sound.of_stated found).2.2)
      (fun contents found => (otherSound.of_stated found).2.2)
      (fun contents found counterpart otherFound =>
        oneModel.owner_eq sound otherSound found otherFound)
  rw [equals_iff_near sound otherSound]
  refine and_congr_right fun _ => ⟨?_, ?_⟩
  · rintro ⟨near, each⟩
    obtain ⟨difference, success⟩ := exists_difference sound otherSound near each
    have oneModel := oneModel_of_near sound otherSound each
    exact ⟨difference, success, (terms success oneModel).mpr each,
      (constants success).mpr near⟩
  · rintro ⟨difference, success, empty, small⟩
    have oneModel := ((exists_addExpression_iff_listed sound otherSound (by decide)).mp
      ⟨difference, success⟩).1
    exact ⟨(constants success).mp small, (terms success oneModel).mp empty⟩

end Cancelling

section Commuting

/-- The sum of two expressions in either order exists under one condition. -/
theorem exists_sum_iff (sound : expression.Sound admitted) (otherSound : other.Sound admitted) :
    (∃ result, addExpression other 1 expression = .ok () result) ↔
      OneModel expression other ∧
        Scalar.isFinite (expression.constant + other.constant) = true ∧
        ∀ index, Scalar.isFinite (expression.terms.coefficient index +
          other.terms.coefficient index) = true := by
  rw [exists_addExpression_iff_listed sound otherSound (by decide)]
  simp only [Double.mul_one]
  refine and_congr_right fun _ => ?_
  constructor
  · rintro ⟨_, constant, each⟩
    refine ⟨constant, fun index => ?_⟩
    cases found : other.stated index with
    | some contents =>
        obtain ⟨term, membership, rfl⟩ := exists_term_of_stated found
        have sum := (each _ membership).2
        rw [coefficient_eq_stated other, found]
        exact sum
    | none =>
        rw [coefficient_eq_stated other, found, Double.add_comm]
        apply Double.isFinite_zero_add
        rw [coefficient_eq_stated]
        cases present : expression.stated index with
        | none => exact LawfulScalar.isFinite_zero
        | some contents => exact (sound.of_stated present).2.1
  · rintro ⟨constant, each⟩
    refine ⟨otherSound.constant, constant, fun entry membership => ?_⟩
    have sum := each entry.1
    rw [coefficient_eq_stated other, stated_of_mem membership] at sum
    exact ⟨otherSound.terms.finite entry membership, sum⟩

private theorem combined_comm {first second : Option (Owner × Float)}
    (large : ∀ contents ∈ first, Scalar.nearZero contents.2 = false)
    (otherLarge : ∀ contents ∈ second, Scalar.nearZero contents.2 = false)
    (owner : ∀ contents ∈ first, ∀ counterpart ∈ second, contents.1 = counterpart.1) :
    combined first second 1 = combined second first 1 := by
  cases first with
  | none =>
      cases second with
      | none => rfl
      | some counterpart =>
          have stays := otherLarge counterpart rfl
          simp [combined, Double.mul_one, Double.zero_add_of_large stays, stays]
  | some contents =>
      cases second with
      | none =>
          have stays := large contents rfl
          simp [combined, Double.mul_one, Double.zero_add_of_large stays, stays]
      | some counterpart =>
          have owners := owner contents rfl counterpart rfl
          simp [combined, Double.mul_one, Double.add_comm contents.2, owners]

/-- The sums of two expressions in either order are the same, up to the order of terms. -/
theorem reordered_sums (sound : expression.Sound admitted) (otherSound : other.Sound admitted)
    (relations : expression.relation = other.relation) {reverse : Expression Float}
    (success : addExpression other 1 expression = .ok () result)
    (otherSuccess : addExpression expression 1 other = .ok () reverse) :
    result.Reordered reverse := by
  have oneModel := ((exists_sum_iff sound otherSound).mp ⟨result, success⟩).1
  constructor
  case stated =>
    intro index
    rw [stated_addExpression otherSound success, stated_addExpression sound otherSuccess]
    exact combined_comm (fun contents found => (sound.of_stated found).2.2)
      (fun contents found => (otherSound.of_stated found).2.2)
      (fun contents found counterpart otherFound =>
        oneModel.owner_eq sound otherSound found otherFound)
  all_goals
    obtain ⟨terms, _, _, rfl⟩ := parts_of_addExpression success
    obtain ⟨otherTerms, _, _, rfl⟩ := parts_of_addExpression otherSuccess
  case relation => exact relations
  case constant => simp only [Double.mul_one, Double.add_comm]

end Commuting

end LinearProgram.Expression
