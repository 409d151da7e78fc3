import LinearProgram.Proofs.Double.Equality
import LinearProgram.Proofs.Double.Product
import LinearProgram.Proofs.Expression.Updates

/-!
# Operations side by side

What an operation checks, and in which order, is read off the update that carries it out.  Three
implementations are compared that way: a multiple is collected from a zero of its own, scaling
collects the same terms in place, and a variable starts from fresh terms.  They refuse the same
arguments for the same reasons.  What they make can differ only in the sign of a zero constant.
-/

namespace LinearProgram

namespace Expression

variable {expression other : Expression Float}

/-- The same terms in the same order, the same relation, and numerically the same constant. -/
structure Matches (first second : Expression Float) : Prop where
  terms : first.terms = second.terms
  relation : first.relation = second.relation
  constant : (first.constant == second.constant) = true

/-- Two operations that make matching expressions, or that fail for the same reason. -/
inductive Match : Except (Error Float) (Expression Float) →
    Except (Error Float) (Expression Float) → Prop where
  | ok {first second : Expression Float} (matching : first.Matches second) :
      Match (.ok first) (.ok second)
  | error {reason : Error Float} : Match (.error reason) (.error reason)

/-- What an operation makes matches an expression. -/
def Regains (expression : Expression Float)
    (outcome : Except (Error Float) (Expression Float)) : Prop :=
  ∃ result, outcome = .ok result ∧ result.Matches expression

section Checks

theorem finite_eq_ok {value : Float} (finite : Scalar.isFinite value = true) :
    LinearProgram.finite value = .ok value := by
  rw [LinearProgram.finite, if_pos finite]

theorem finite_eq_error {value : Float} (infinite : ¬Scalar.isFinite value = true) :
    LinearProgram.finite value = .error (.notFinite (.number value)) := by
  rw [LinearProgram.finite, if_neg infinite]

variable {β : Type} (expression : Expression Float)

private theorem after_check (check : Except (Error Float) β)
    (update : β → ExpressionUpdate Float Unit) :
    expression.after (liftM check >>= update) =
      (check >>= fun value => expression.after (update value)) := by
  cases check <;> rfl

private theorem after_get (update : Expression Float → ExpressionUpdate Float Unit) :
    expression.after (get >>= update) = expression.after (update expression) := rfl

private theorem after_set (written : Expression Float) :
    expression.after (set written) = .ok written := rfl

/-- The checks of an addition, in their order. -/
theorem after_addExpression (other : Expression Float) (factor : Float) :
    expression.after (addExpression other factor) = (do
      let factor ← finite factor
      expression.requireOneModel other
      let product ← finite (other.constant * factor)
      let constant ← finite (expression.constant + product)
      let terms ← expression.terms.addScaled other.termList factor
      return { expression with terms, constant }) := by
  simp only [addExpression, after_check, after_get, after_set]
  rfl

/-- The checks of adding a number. -/
theorem after_addMultiple_number (amount factor : Float) :
    expression.after (addMultiple (.number amount) factor) = (do
      let factor ← finite factor
      let amount ← finite (amount * factor)
      let constant ← finite (expression.constant + amount)
      return { expression with constant }) := by
  simp only [addMultiple, addConstant, after_check, after_get, after_set]
  rfl

/-- To add an expression as an operand is to add its terms and its constant. -/
theorem after_addMultiple_expression (number : Nat) (other : Expression Float) (factor : Float) :
    expression.after (addMultiple (.expression number other) factor) =
      expression.after (addExpression other factor) := by
  rw [addMultiple, after_check]
  by_cases finite : Scalar.isFinite factor = true
  · rw [finite_eq_ok finite]
    rfl
  · rw [after_addExpression, finite_eq_error finite]
    rfl

/-- The checks of scaling in place. -/
theorem after_scale (factor : Float) :
    expression.after (scale factor) = (do
      let factor ← finite factor
      let constant ← finite (expression.constant * factor)
      let terms ← Terms.addScaled OrderedMap.empty expression.termList factor
      return { expression with terms, constant }) := by
  simp only [scale, after_check, after_get, after_set]
  rfl

/-- The checks of a multiple. -/
theorem times_eq (factor : Float) :
    expression.times factor = (do
      let factor ← finite factor
      let product ← finite (expression.constant * factor)
      let constant ← finite (0 + product)
      let terms ← Terms.addScaled OrderedMap.empty expression.termList factor
      return { expression with terms, constant }) := by
  rw [times, after_addExpression]
  rfl

end Checks

section Operands

variable {number : Nat}

theorem plus_expression : expression.plus (.expression number other) =
    expression.after (addExpression other 1) :=
  after_addMultiple_expression expression number other 1

theorem minus_expression : expression.minus (.expression number other) =
    expression.after (addExpression other (-1)) :=
  after_addMultiple_expression expression number other (-1)

theorem plus_eq_ok_iff {sum : Expression Float} :
    expression.plus (.expression number other) = .ok sum ↔
      addExpression other 1 expression = .ok () sum := by
  rw [plus_expression]
  exact ⟨ok_of_after, after_of_ok⟩

theorem minus_eq_ok_iff {difference : Expression Float} :
    expression.minus (.expression number other) = .ok difference ↔
      addExpression other (-1) expression = .ok () difference := by
  rw [minus_expression]
  exact ⟨ok_of_after, after_of_ok⟩

end Operands

section Scaling

/-- The same number, or finite numbers that compare as equal. -/
def Agree (first second : Float) : Prop :=
  first = second ∨ Scalar.isFinite first = true ∧ (first == second) = true

/-- Constants that agree are accepted or refused alike, and terms that are the same are taken
over. -/
theorem match_of_agree (expression : Expression Float) {first second : Float}
    (agree : Agree first second) {collected recollected : Except (Error Float) (Terms Float)}
    (alike : collected = recollected) :
    Match
      (finite first >>= fun constant => collected >>= fun terms =>
        pure { expression with terms, constant })
      (finite second >>= fun constant => recollected >>= fun terms =>
        pure { expression with terms, constant }) := by
  subst alike
  by_cases isFinite : Scalar.isFinite first = true
  · have same : (first == second) = true := by
      rcases agree with rfl | ⟨_, same⟩
      · exact Double.beq_refl isFinite
      · exact same
    rw [finite_eq_ok isFinite, finite_eq_ok (Double.isFinite_of_beq isFinite same)]
    cases collected with
    | error reason => exact .error
    | ok terms => exact .ok ⟨rfl, rfl, same⟩
  · rcases agree with rfl | ⟨finite, _⟩
    · rw [finite_eq_error isFinite]
      exact .error
    · exact absurd finite isFinite

/-- Scaling in place and multiplying make matching expressions, or fail for the same reason. -/
theorem match_times_scale (expression : Expression Float) (factor : Float) :
    Match (expression.times factor) (expression.after (scale factor)) := by
  rw [times_eq, after_scale]
  cases LinearProgram.finite factor with
  | error reason => exact .error
  | ok factor =>
      change Match (finite (expression.constant * factor) >>= _)
        (finite (expression.constant * factor) >>= _)
      by_cases isFinite : Scalar.isFinite (expression.constant * factor) = true
      · have agree : Agree (0 + expression.constant * factor) (expression.constant * factor) :=
          .inr ⟨Double.isFinite_zero_add isFinite, Double.beq_zero_add isFinite⟩
        have scaled : finite (expression.constant * factor) =
            .ok (expression.constant * factor) := finite_eq_ok isFinite
        have matching := match_of_agree expression agree
          (@rfl _ (Terms.addScaled OrderedMap.empty expression.termList factor))
        rw [scaled] at matching ⊢
        exact matching
      · rw [finite_eq_error isFinite]
        exact .error

end Scaling

end Expression

namespace Variable

/-- The expression with just the term of a variable. -/
def single (handle : Variable) : Expression Float where
  terms := OrderedMap.empty.insert handle.index ⟨handle.participant, 1⟩
  constant := 0

private theorem add_first (participant : Participant) :
    Terms.add OrderedMap.empty participant (1 : Float) =
      .ok (OrderedMap.empty.insert participant.index ⟨participant, 1⟩) := by
  have large : Scalar.nearZero (1 : Float) = false := by decide
  have sum : (0 : Float) + 1 = 1 := Double.zero_add_of_large large
  have absent : Terms.coefficient (OrderedMap.empty : Terms Float) participant.index = 0 := rfl
  have finite : Scalar.isFinite (1 : Float) = true := by decide
  rw [Terms.add_eq_ok_iff, absent, sum, if_neg (by simp [large])]
  exact ⟨rfl, finite, finite, rfl⟩

private theorem times_eq_add (handle : Variable) (factor : Float) :
    handle.times factor = (Terms.add OrderedMap.empty handle.participant factor >>= fun terms =>
      pure { terms, constant := 0 }) := by
  have zero : Scalar.isFinite (0 : Float) = true := LawfulScalar.isFinite_zero
  rw [times, Expression.assemble, Expression.finite_eq_ok zero, List.foldlM_cons]
  simp only [List.foldlM_nil, bind_pure]
  rfl

/-- A variable counts as the expression with its one term. -/
theorem toExpression_eq (handle : Variable) : handle.toExpression = .ok handle.single := by
  have added : Terms.add OrderedMap.empty handle.participant (One.one : Float) =
      .ok handle.single.terms := add_first handle.participant
  rw [toExpression, times_eq_add]
  change (Terms.add OrderedMap.empty handle.participant (One.one : Float) >>= _) = _
  rw [added]
  rfl

/-- Building from one variable and the coefficient one gives the expression of the variable. -/
theorem build_single (reckon : Reckoning Float) (handle : Variable) (tag otherTag : Nat) :
    Expression.build reckon (.list [.handle handle] tag) (.list [.number 1] otherTag)
      (.number 0) (.text "") = .ok handle.single := by
  have joined : Expression.join OrderedMap.empty (.handle handle, .number 1) =
      .ok handle.single.terms := add_first handle.participant
  have together : Expression.joinAll reckon (.list [.handle handle] tag)
      (.list [.number 1] otherTag) = .ok handle.single.terms := by
    change ([(.handle handle, .number 1)].foldlM Expression.join OrderedMap.empty) = _
    rw [List.foldlM_cons, joined]
    rfl
  have lengths : (Value.list [.handle handle] tag).length.identical
      (Value.list [.number (1 : Float)] otherTag).length = true := by
    change (Value.number (Scalar.ofNat 1 : Float)).identical (.number (Scalar.ofNat 1)) = true
    decide
  rw [Expression.build, together, if_pos lengths]
  rfl

theorem times_single (handle : Variable) (factor : Float) :
    handle.single.times factor = handle.times factor := by
  have terms : handle.single.termList = [⟨handle.participant, 1⟩] := rfl
  have constant : handle.single.constant = 0 := rfl
  rw [Expression.times_eq, terms, constant, times_eq_add]
  by_cases finite : Scalar.isFinite factor = true
  · have product := Double.isFinite_zero_mul finite
    have zero : Scalar.isFinite (0 : Float) = true := LawfulScalar.isFinite_zero
    have added : Terms.addScaled OrderedMap.empty [⟨handle.participant, 1⟩] factor =
        Terms.add OrderedMap.empty handle.participant factor := by
      simp only [Terms.addScaled, List.foldlM_cons, List.foldlM_nil, bind_pure, Double.one_mul]
    simp only [Expression.finite_eq_ok finite, Expression.finite_eq_ok product, bind, Except.bind,
      Double.zero_add_zero_mul finite, Expression.finite_eq_ok zero, added]
    rfl
  · rw [Expression.finite_eq_error finite, Terms.add, Expression.finite_eq_error finite]
    rfl

/-- The operators of a variable do what the operators of its expression do. -/
theorem onVariable_eq (operator : Operator) (handle : Variable) (operand : Value Float) :
    operator.onVariable handle operand = operator.onExpression handle.single operand := by
  cases operator with
  | plus => rw [Operator.onVariable, Variable.plus, toExpression_eq]; rfl
  | minus => rw [Operator.onVariable, Variable.minus, toExpression_eq]; rfl
  | multiply =>
      simp only [Operator.onVariable, Operator.onExpression, Variable.multiply,
        Expression.multiply, times_single]
  | divide =>
      simp only [Operator.onVariable, Operator.onExpression, Variable.divide,
        Expression.divide, times_single]
  | negate =>
      simp only [Operator.onVariable, Operator.onExpression, Variable.negate,
        Expression.negate, times_single]
  | relate relation =>
      simp only [Operator.onVariable, Operator.onExpression, Variable.relate, Expression.relate,
        Variable.minus, Expression.minus, toExpression_eq]
      rfl

end Variable

end LinearProgram
