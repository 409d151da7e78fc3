import LinearProgram.Proofs.Expression.Cancellation
import LinearProgram.Proofs.Expression.CanonicalKey
import LinearProgram.Proofs.Expression.Operations

/-!
# The algebra of expressions

If no product is negligible, a multiple has the old terms in the old order, each with its product.
So signs can be changed back and forth, and a difference is the sum with the opposite: the same
terms are added in either case.  Sums of two expressions in either order state the same at each
index, so they are equal, and they have one key if all indices are numbers.
-/

namespace LinearProgram

/-- A term with its coefficient multiplied. -/
def Term.scaled {α : Type} [Mul α] (factor : α) (term : Term α) : Term α :=
  { term with coefficient := term.coefficient * factor }

namespace Expression

variable {admitted : Variable → Prop} {expression other : Expression Float} {factor : Float}

section Multiples

/-- Each coefficient can be multiplied without becoming infinite or negligible. -/
def Steady (factor : Float) (terms : Terms Float) : Prop :=
  ∀ entry ∈ terms.toList, Scalar.isFinite (entry.2.coefficient * factor) = true ∧
    Scalar.nearZero (entry.2.coefficient * factor) = false

theorem steady_one (sound : expression.Sound admitted) : Steady 1 expression.terms := by
  intro entry membership
  rw [Double.mul_one]
  exact ⟨sound.terms.finite entry membership, sound.terms.large entry membership⟩

theorem steady_neg_one (sound : expression.Sound admitted) : Steady (-1) expression.terms := by
  intro entry membership
  rw [Double.mul_neg_one, Double.isFinite_neg, Double.nearZero_neg]
  exact ⟨sound.terms.finite entry membership, sound.terms.large entry membership⟩

private theorem exists_multiples (sound : expression.Sound admitted)
    (steady : Steady factor expression.terms) :
    ∃ terms, Terms.addScaled OrderedMap.empty (expression.terms.toList.map Prod.snd) factor =
      .ok terms := by
  obtain ⟨reference, owned, _⟩ := exists_common_owner sound sound (.inr (.inr rfl))
  have distinct : (expression.terms.toList.map Prod.fst).Nodup := expression.terms.distinct
  refine (Terms.exists_addScaled_iff Terms.over_empty owned sound.terms.filed distinct).mpr ?_
  intro entry membership
  obtain ⟨finite, _⟩ := steady entry membership
  have sum : Scalar.isFinite (0 + entry.2.coefficient * factor) = true :=
    Double.isFinite_zero_add finite
  have zero : Terms.coefficient (OrderedMap.empty : Terms Float) entry.1 = 0 := rfl
  rw [zero]
  exact ⟨finite, sum⟩

private theorem get?_multiples {terms : Terms Float} (sound : expression.Sound admitted)
    (steady : Steady factor expression.terms)
    (addition : Terms.addScaled OrderedMap.empty (expression.terms.toList.map Prod.snd) factor =
      .ok terms) (index : Index) :
    terms.get? index = (expression.terms.get? index).map (Term.scaled factor) := by
  have distinct : (expression.terms.toList.map Prod.fst).Nodup := expression.terms.distinct
  have absent : OrderedMap.get? (OrderedMap.empty : Terms Float) index = none := rfl
  rw [Terms.get?_addScaled sound.terms.filed distinct addition, absent, ← OrderedMap.get?]
  cases found : expression.terms.get? index with
  | none => rfl
  | some term =>
      obtain ⟨_, large⟩ := steady _ (OrderedMap.get?_eq_some_iff.mp found)
      simp only [Terms.merged, Terms.joined, Option.map_none, Option.getD_none,
        Double.zero_add_of_large large, large]
      rfl

/-- Collected from fresh terms, steady multiples are the terms with their coefficients
multiplied. -/
theorem addScaled_empty (sound : expression.Sound admitted)
    (steady : Steady factor expression.terms) :
    Terms.addScaled OrderedMap.empty expression.termList factor =
      .ok (expression.terms.map (Term.scaled factor)) := by
  obtain ⟨terms, addition⟩ := exists_multiples sound steady
  have distinct : (expression.terms.toList.map Prod.fst).Nodup := expression.terms.distinct
  have mapped : (expression.terms.map (Term.scaled factor)).keys = expression.terms.keys := by
    simp [OrderedMap.keys, OrderedMap.map, Function.comp_def]
  have keys : terms.keys = expression.terms.keys := by
    refine (Terms.keys_addScaled sound.terms.filed distinct addition).trans
      (List.filter_eq_self.mpr ?_)
    intro index listed
    have present : expression.terms.contains index = true := OrderedMap.contains_iff.mpr listed
    have stays : terms.contains index = true := by
      rw [OrderedMap.contains, get?_multiples sound steady addition, Option.isSome_map]
      exact present
    have fresh : (OrderedMap.empty : Terms Float).contains index = false := rfl
    rw [fresh, stays]
    rfl
  have same : terms = expression.terms.map (Term.scaled factor) := by
    apply OrderedMap.eq_of_keys (keys.trans mapped.symm)
    intro index _
    rw [get?_multiples sound steady addition, OrderedMap.get?_map]
  rw [← same]
  exact addition

/-- A steady multiple has the same terms with their coefficients multiplied. -/
theorem times_of_steady (sound : expression.Sound admitted)
    (finite : Scalar.isFinite factor = true)
    (product : Scalar.isFinite (expression.constant * factor) = true)
    (steady : Steady factor expression.terms) :
    expression.times factor = .ok { expression with
      terms := expression.terms.map (Term.scaled factor),
      constant := 0 + expression.constant * factor } := by
  have sum := Double.isFinite_zero_add product
  simp only [times_eq, bind, Except.bind, finite_eq_ok finite, finite_eq_ok product,
    finite_eq_ok sum, addScaled_empty sound steady]
  rfl

/-- The expression with all signs changed. -/
def negated (expression : Expression Float) : Expression Float :=
  { expression with
    terms := expression.terms.map (Term.scaled (-1)),
    constant := 0 + expression.constant * (-1) }

theorem negate_eq (sound : expression.Sound admitted) :
    expression.negate = .ok expression.negated := by
  apply times_of_steady sound (by decide) _ (steady_neg_one sound)
  rw [Double.mul_neg_one, Double.isFinite_neg]
  exact sound.constant

theorem negated_sound (sound : expression.Sound admitted) :
    expression.negated.Sound admitted :=
  times_sound sound (negate_eq sound)

end Multiples

section Commuting

variable {number otherNumber : Nat} {sum reverse : Expression Float}

/-- A sum exists in either order, or in none. -/
theorem exists_plus_comm (sound : expression.Sound admitted) (otherSound : other.Sound admitted) :
    (∃ sum, expression.plus (.expression number other) = .ok sum) ↔
      ∃ sum, other.plus (.expression otherNumber expression) = .ok sum := by
  simp only [plus_eq_ok_iff, exists_sum_iff sound otherSound, exists_sum_iff otherSound sound]
  refine and_congr ⟨OneModel.symm, OneModel.symm⟩ (and_congr ?_ (forall_congr' fun index => ?_))
  · rw [Double.add_comm]
  · rw [Double.add_comm]

theorem reordered_plus (sound : expression.Sound admitted) (otherSound : other.Sound admitted)
    (relations : expression.relation = other.relation)
    (success : expression.plus (.expression number other) = .ok sum)
    (otherSuccess : other.plus (.expression otherNumber expression) = .ok reverse) :
    sum.Reordered reverse :=
  reordered_sums sound otherSound relations (plus_eq_ok_iff.mp success)
    (plus_eq_ok_iff.mp otherSuccess)

theorem plus_sound (sound : expression.Sound admitted) (otherSound : other.Sound admitted)
    (success : expression.plus (.expression number other) = .ok sum) : sum.Sound admitted :=
  addExpression_sound sound otherSound (plus_eq_ok_iff.mp success)

/-- The sums of two expressions in either order are equal. -/
theorem equals_plus_comm (sound : expression.Sound admitted) (otherSound : other.Sound admitted)
    (relations : expression.relation = other.relation)
    (success : expression.plus (.expression number other) = .ok sum)
    (otherSuccess : other.plus (.expression otherNumber expression) = .ok reverse) :
    sum.equals reverse = true := by
  have sumSound := plus_sound sound otherSound success
  have reverseSound := plus_sound otherSound sound otherSuccess
  have reordered := reordered_plus sound otherSound relations success otherSuccess
  rw [reordered.equals_eq sumSound reverseSound reverseSound]
  exact equals_refl reverseSound

/-- A reordered expression has the same contents. -/
theorem Reordered.sameContents (reordered : expression.Reordered other)
    (sound : expression.Sound admitted) : expression.SameContents other where
  relation := reordered.relation
  constant := by
    rw [← reordered.constant]
    exact Double.beq_refl sound.constant
  indices index := by
    rw [← not_iff_not, ← stated_eq_none_iff, ← stated_eq_none_iff, reordered.stated]
  coefficients index listed := by
    obtain ⟨entry, membership, rfl⟩ := List.mem_map.mp listed
    rw [coefficient_eq_stated other, ← reordered.stated, ← coefficient_eq_stated,
      coefficient_of_mem membership]
    exact Double.beq_refl (sound.terms.finite entry membership)

/-- A sum has no indices but those of its operands. -/
theorem mem_keys_plus (otherSound : other.Sound admitted)
    (success : expression.plus (.expression number other) = .ok sum) {index : Index}
    (listed : index ∈ sum.terms.keys) :
    index ∈ expression.terms.keys ∨ index ∈ other.terms.keys := by
  by_contra absent
  rw [not_or, ← stated_eq_none_iff, ← stated_eq_none_iff] at absent
  have nothing : sum.stated index = none := by
    rw [stated_addExpression otherSound (plus_eq_ok_iff.mp success), absent.1, absent.2]
    rfl
  exact stated_eq_none_iff.mp nothing listed

/-- The sums of two expressions in either order have one key, if all indices are numbers. -/
theorem key_plus_comm (sound : expression.Sound admitted) (otherSound : other.Sound admitted)
    (relations : expression.relation = other.relation)
    (numeric : ∀ index ∈ expression.terms.keys, index.Numeric)
    (otherNumeric : ∀ index ∈ other.terms.keys, index.Numeric)
    (success : expression.plus (.expression number other) = .ok sum)
    (otherSuccess : other.plus (.expression otherNumber expression) = .ok reverse) :
    sum.key = reverse.key := by
  have reordered := reordered_plus sound otherSound relations success otherSuccess
  have sumSound := plus_sound sound otherSound success
  apply key_eq_of_sameContents _ (reordered.sameContents sumSound)
  intro index listed
  rcases mem_keys_plus otherSound success listed with present | present
  · exact numeric index present
  · exact otherNumeric index present

end Commuting

section Restoring

/-- Changing all signs twice restores an expression. -/
theorem regains_negate_negate (sound : expression.Sound admitted) :
    Regains expression (expression.negate >>= negate) := by
  refine ⟨expression.negated.negated, ?_, ?_, rfl, ?_⟩
  · rw [negate_eq sound]
    exact negate_eq (negated_sound sound)
  · apply OrderedMap.ext
    simp only [negated, OrderedMap.map, List.map_map]
    refine (List.map_congr_left fun entry _ => ?_).trans (List.map_id _)
    simp only [Function.comp_apply, Term.scaled, Double.mul_neg_one, Double.neg_neg]
    rfl
  · have opposite : Scalar.isFinite (-expression.constant) = true :=
      (Double.isFinite_neg _).trans sound.constant
    have once : (-(0 + -expression.constant) == expression.constant) = true := by
      have negated := Double.beq_neg (Double.beq_zero_add opposite)
      rwa [Double.neg_neg] at negated
    have finite : Scalar.isFinite (-(0 + -expression.constant)) = true :=
      (Double.isFinite_neg _).trans (Double.isFinite_zero_add opposite)
    simp only [negated, Double.mul_neg_one]
    exact Double.beq_trans (Double.beq_zero_add finite) once

/-- Adding zero leaves an expression as it is. -/
theorem regains_plus_zero (sound : expression.Sound admitted) :
    Regains expression (expression.plus (.number 0)) := by
  have zero : (0 : Float) * 1 = 0 := Double.mul_one 0
  have same : (expression.constant + 0 == expression.constant) = true :=
    Double.add_zero_beq Double.parts_zero sound.constant
  have finite : Scalar.isFinite (expression.constant + 0) = true :=
    Double.isFinite_of_beq sound.constant (Double.beq_comm same)
  refine ⟨{ expression with constant := expression.constant + 0 }, ?_, rfl, rfl, same⟩
  have one : Scalar.isFinite (1 : Float) = true := by decide
  have none : Scalar.isFinite (0 : Float) = true := LawfulScalar.isFinite_zero
  rw [plus, after_addMultiple_number]
  change (do
    let factor ← LinearProgram.finite (1 : Float)
    let amount ← LinearProgram.finite (0 * factor)
    let constant ← LinearProgram.finite (expression.constant + amount)
    return { expression with constant }) = _
  simp only [bind, Except.bind, finite_eq_ok one, zero, finite_eq_ok none, finite_eq_ok finite]
  rfl

/-- Multiplying by one leaves an expression as it is. -/
theorem regains_multiply_one (sound : expression.Sound admitted) :
    Regains expression (expression.multiply (.number 1)) := by
  have product : Scalar.isFinite (expression.constant * 1) = true := by
    rw [Double.mul_one]
    exact sound.constant
  refine ⟨_, times_of_steady sound (by decide) product (steady_one sound), ?_, rfl, ?_⟩
  · apply OrderedMap.ext
    refine (List.map_congr_left fun entry _ => ?_).trans (List.map_id _)
    simp only [Term.scaled, Double.mul_one]
    rfl
  · rw [Double.mul_one]
    exact Double.beq_zero_add sound.constant

/-- An expression less itself is the constant zero. -/
theorem minus_self (sound : expression.Sound admitted) (number : Nat) :
    ∃ difference, expression.minus (.expression number expression) = .ok difference ∧
      difference.isConstant = true ∧ difference.constant = 0 := by
  have equal := equals_refl sound
  obtain ⟨_, difference, success, empty, _⟩ := (equals_iff_cancels sound sound).mp equal
  obtain ⟨_, _, _, written⟩ := parts_of_addExpression success
  refine ⟨difference, minus_eq_ok_iff.mpr success, empty, ?_⟩
  rw [written, Double.mul_neg_one, Double.add_neg, Double.sub_self sound.constant]

end Restoring

section Subtracting

/-- It does not count whether the opposite of a number was added to zero before. -/
private theorem agree_of_opposite {first second : Float} (finite : Scalar.isFinite first = true) :
    Agree (first + -second) (first + (0 + -second)) := by
  rcases Double.zero_add_cases (-second) with same | ⟨_, _, zero, sum⟩
  · rw [same]
    exact .inl rfl
  · have plain := Double.add_zero_beq zero finite
    have again := Double.add_zero_beq sum finite
    exact .inr ⟨Double.isFinite_of_beq finite (Double.beq_comm plain),
      Double.beq_trans plain (Double.beq_comm again)⟩

private theorem owner?_negated (expression : Expression Float) :
    expression.negated.owner? = expression.owner? := by
  simp only [owner?, Terms.owner?, OrderedMap.first?, OrderedMap.values, negated, OrderedMap.map,
    List.map_map, List.head?_map, Option.map_map]
  rfl

private theorem addScaled_negated (terms : Terms Float) (expression : Expression Float) :
    terms.addScaled expression.negated.termList 1 =
      terms.addScaled expression.termList (-1) := by
  have negated : expression.negated.termList = expression.termList.map (Term.scaled (-1)) := by
    simp only [termList, OrderedMap.values, Expression.negated, OrderedMap.map, List.map_map]
    rfl
  rw [negated, Terms.addScaled, List.foldlM_map]
  simp only [Term.scaled, Double.mul_one]
  rfl

/-- A difference and the sum with the opposite match, or neither exists. -/
theorem match_minus_negate (sound : expression.Sound admitted) (otherSound : other.Sound admitted)
    (number : Nat) :
    Match (expression.minus (.expression number other))
      (other.negate >>= fun opposite => expression.after (addExpression opposite 1)) := by
  have opposite : Scalar.isFinite (-other.constant) = true :=
    (Double.isFinite_neg _).trans otherSound.constant
  have sum : Scalar.isFinite (0 + -other.constant) = true := Double.isFinite_zero_add opposite
  have constant : other.negated.constant * 1 = 0 + -other.constant := by
    rw [Double.mul_one, negated, Double.mul_neg_one]
  have one : Scalar.isFinite (1 : Float) = true := by decide
  have minus : Scalar.isFinite (-1 : Float) = true := by decide
  have owners : expression.requireOneModel other.negated = expression.requireOneModel other := by
    rw [requireOneModel, owner?_negated, requireOneModel]
  rw [negate_eq otherSound]
  change Match _ (expression.after (addExpression other.negated 1))
  rw [minus_expression, after_addExpression, after_addExpression, owners]
  rw [finite_eq_ok one, finite_eq_ok minus]
  cases expression.requireOneModel other with
  | error reason => exact .error
  | ok _ =>
      have agree : Agree (expression.constant + -other.constant)
          (expression.constant + (0 + -other.constant)) := agree_of_opposite sound.constant
      change Match (finite (other.constant * (-1)) >>= _)
        (finite (other.negated.constant * 1) >>= _)
      rw [Double.mul_neg_one, constant, finite_eq_ok opposite, finite_eq_ok sum]
      exact match_of_agree expression agree (addScaled_negated ..).symm

end Subtracting

end Expression

end LinearProgram
