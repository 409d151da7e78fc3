import LinearProgram.Proofs.Expression.Reachable
import LinearProgram.Proofs.Expression.Total

/-!
# Combinations of expressions

Operators on variables and expressions, and most changes in place, add a multiple
of an operand to something.  Over rationals none of them is refused as long as
all variables belong to one model, because no sum stops being finite.  What they
make has the contents of what they start from, with the multiple of the contents
of the operand added.
-/

namespace LinearProgram

/-- What an operand has of a constant and of coefficients, by index. -/
def Value.contents {α : Type} [Scalar α] : Value α → Row α
  | number amount => { constant := amount }
  | handle value => { constant := 0, cells := ⟨[(value.index, 1)], by simp⟩ }
  | expression _ value => value.contents
  | _ => { constant := 0 }

/-- A number, a variable or an expression of rationals, over admitted handles. -/
inductive Operand (admitted : Variable → Prop) : Value Exact → Prop
  | number (amount : Rat) : Operand admitted (.number (.finite amount))
  | handle {handle : Variable} (allowed : admitted handle) :
      Operand admitted (.handle handle)
  | expression {number : Nat} {expression : Expression Exact}
      (reachable : expression.Reachable admitted) :
      Operand admitted (.expression number expression)

/-- The outcome adds a multiple of an operand to something. -/
inductive Combination : (start operand : Value Exact) → (factor : Rat) →
    (outcome : Except (Error Exact) (Expression Exact)) → Prop
  | addExpression (reckon : Reckoning Exact) (number other : Nat)
      (expression added : Expression Exact) (factor : Rat) :
      Combination (.expression number expression) (.expression other added) factor
        (expression.after ((Expression.Edit.addExpression
          (.expression other added) (.number (.finite factor))).apply reckon))
  | addMultiple (reckon : Reckoning Exact) (number : Nat)
      (expression : Expression Exact) (operand : Value Exact) (factor : Rat) :
      Combination (.expression number expression) operand factor
        (expression.after ((Expression.Edit.addMultiple operand
          (.number (.finite factor))).apply reckon))
  | scale (reckon : Reckoning Exact) (number : Nat)
      (expression : Expression Exact) (factor : Rat) :
      Combination (.number (.finite 0)) (.expression number expression) factor
        (expression.after ((Expression.Edit.scale
          (.number (.finite factor))).apply reckon))
  | plus {receiver : Value Exact} (object : receiver.isObject = true)
      (operand : Value Exact) :
      Combination receiver operand 1 (Operator.plus.apply receiver operand)
  | minus {receiver : Value Exact} (object : receiver.isObject = true)
      (operand : Value Exact) :
      Combination receiver operand (-1) (Operator.minus.apply receiver operand)
  | relate {receiver : Value Exact} (object : receiver.isObject = true)
      (operand : Value Exact) (relation : Relation) :
      Combination receiver operand (-1)
        ((Operator.relate relation).apply receiver operand)
  | multiply {receiver : Value Exact} (object : receiver.isObject = true)
      (factor : Rat) :
      Combination (.number (.finite 0)) receiver factor
        (Operator.multiply.apply receiver (.number (.finite factor)))
  | divide {receiver : Value Exact} (object : receiver.isObject = true)
      {divisor : Rat} (nonzero : divisor ≠ 0) :
      Combination (.number (.finite 0)) receiver (1 / divisor)
        (Operator.divide.apply receiver (.number (.finite divisor)))
  | negate {receiver : Value Exact} (object : receiver.isObject = true)
      (operand : Value Exact) :
      Combination (.number (.finite 0)) receiver (-1)
        (Operator.negate.apply receiver operand)

variable {admitted : Variable → Prop} {reference : ModelRef}

section Rational

variable {allowed : Index → Prop}

/-- The contents of an expression are rationals, with cells of its variables. -/
theorem Expression.Sound.rational {expression : Expression Exact}
    (sound : expression.Sound admitted)
    (indices : ∀ handle, admitted handle → allowed handle.index) :
    expression.contents.Rational allowed := by
  refine ⟨?_, ?_, sound.constant⟩
  · intro cell membership
    obtain ⟨entry, present, rfl⟩ := List.mem_map.mp membership
    obtain ⟨handle, admits, participant⟩ := sound.terms.handles entry present
    have filed := sound.terms.filed entry present
    rw [participant] at filed
    refine ⟨?_, sound.terms.large entry present⟩
    change allowed entry.1
    rw [← filed]
    exact indices handle admits
  · intro cell membership
    obtain ⟨entry, present, rfl⟩ := List.mem_map.mp membership
    exact sound.terms.finite entry present

theorem Operand.rational {value : Value Exact} (operand : Operand admitted value)
    (indices : ∀ handle, admitted handle → allowed handle.index) :
    value.contents.Rational allowed := by
  cases operand with
  | number amount =>
      refine ⟨Row.within_empty _ _, ?_, rfl⟩
      intro cell membership
      cases membership
  | @handle handle admits =>
      refine ⟨?_, ?_, rfl⟩
      · intro cell membership
        cases List.mem_singleton.mp membership
        exact ⟨indices handle admits, Exact.nearZero_one⟩
      · intro cell membership
        cases List.mem_singleton.mp membership
        rfl
  | expression reachable => exact reachable.sound.rational indices

end Rational

section Success

-- All handles that are admitted belong to one model.
variable (owned : ∀ handle, admitted handle → handle.model = reference)

include owned

theorem Terms.Sound.over {terms : Terms Exact} (sound : terms.Sound admitted) :
    terms.Over (fun other => other.owner = .model reference) := by
  intro entry membership
  obtain ⟨handle, admits, participant⟩ := sound.handles entry membership
  rw [participant, ← owned handle admits]
  rfl

theorem Terms.exists_add {terms : Terms Exact} (sound : terms.Sound admitted)
    {handle : Variable} (allowed : admitted handle) {coefficient : Exact}
    (finite : Scalar.isFinite coefficient = true) :
    ∃ result, terms.add handle.participant coefficient = .ok result := by
  have present : Scalar.isFinite (terms.coefficient handle.index) = true := by
    rw [Terms.coefficient]
    cases found : terms.get? handle.index with
    | none => rfl
    | some term => exact sound.finite _ (OrderedMap.get?_eq_some_iff.mp found)
  have accepted := Terms.accepts_owner (sound.over owned)
  rw [← owned handle allowed] at accepted
  exact ⟨_, Terms.add_eq_ok_iff.mpr
    ⟨accepted, finite, Exact.isFinite_add present finite, rfl⟩⟩

/-- Every term of an expression can be added, after those before it. -/
theorem Terms.exists_addScaled {terms : Terms Exact}
    (sound : terms.Sound admitted) {added : List (Index × Term Exact)}
    (handles : ∀ entry ∈ added, ∃ handle, admitted handle ∧
      entry.2.participant = handle.participant)
    (finite : ∀ entry ∈ added, Scalar.isFinite entry.2.coefficient = true)
    (factor : Rat) :
    ∃ result, terms.addScaled (added.map Prod.snd) (.finite factor) =
      .ok result := by
  induction added generalizing terms with
  | nil => exact ⟨terms, rfl⟩
  | cons entry rest induction =>
      obtain ⟨handle, allowed, participant⟩ := handles entry List.mem_cons_self
      have product : Scalar.isFinite
          (entry.2.coefficient * Exact.finite factor) = true :=
        Exact.isFinite_mul (finite entry List.mem_cons_self) rfl
      obtain ⟨next, stepped⟩ := Terms.exists_add owned sound allowed product
      obtain ⟨result, remaining⟩ := induction (sound.add allowed stepped)
        (fun other membership => handles other (List.mem_cons_of_mem _ membership))
        (fun other membership => finite other (List.mem_cons_of_mem _ membership))
      refine ⟨result, ?_⟩
      rw [← participant] at stepped
      rw [Terms.addScaled, List.map_cons, List.foldlM_cons, stepped]
      exact remaining

theorem Expression.requireOneModel_of_sound {expression other : Expression Exact}
    (sound : expression.Sound admitted) (otherSound : other.Sound admitted) :
    requireOneModel expression other = .ok () := by
  rw [requireOneModel_eq_ok_iff sound otherSound]
  rcases sound.owner_cases with ⟨constant, _⟩ | ⟨_, handle, allowed, owner⟩
  · exact .inl constant
  · rcases otherSound.owner_cases with ⟨constant, _⟩ | ⟨_, further, admits, otherOwner⟩
    · exact .inr (.inl constant)
    · rw [owner, otherOwner, owned handle allowed, owned further admits]
      exact .inr (.inr rfl)

end Success

/-- The outcome is an expression over admitted handles, with such contents. -/
def Makes (admitted : Variable → Prop)
    (outcome : Except (Error Exact) (Expression Exact)) (contents : Row Exact) :
    Prop :=
  ∃ result, outcome = .ok result ∧ result.Sound admitted ∧
    result.contents = contents

section Updates

variable {expression other : Expression Exact}

private theorem looked (expression : Expression Exact) :
    (get : ExpressionUpdate Exact (Expression Exact)) expression =
      .ok expression expression :=
  rfl

theorem Row.plusMultiple_handle {row : Row Exact}
    (finite : Scalar.isFinite row.constant = true) (handle : Variable)
    (factor : Rat) :
    row.plusMultiple (Value.contents (.handle handle)) (.finite factor) =
      row.insert handle.index (.finite factor) := by
  have neutral : (1 : Exact) * .finite factor = .finite factor :=
    congrArg Exact.finite (one_mul factor)
  have constant : row.constant + 0 * Exact.finite factor = row.constant := by
    rw [Exact.eq_finite_of_isFinite finite, Exact.zero_eq,
      Exact.finite_mul_finite, zero_mul, Exact.finite_add_finite, add_zero]
  change { row.insert handle.index (1 * Exact.finite factor) with
    constant := row.constant + 0 * Exact.finite factor } = _
  rw [neutral, constant]
  rfl

theorem makes_scale (sound : expression.Sound admitted)
    (owned : ∀ handle, admitted handle → handle.model = reference) (factor : Rat) :
    Makes admitted (expression.after (Expression.scale (.finite factor)))
      (Row.plusMultiple { constant := .finite 0 } expression.contents
        (.finite factor)) := by
  obtain ⟨terms, added⟩ := Terms.exists_addScaled owned Terms.sound_empty
    sound.terms.handles sound.terms.finite factor
  have product : Scalar.isFinite (expression.constant * .finite factor) = true :=
    Exact.isFinite_mul sound.constant rfl
  have success : Expression.scale (.finite factor) expression = .ok ()
      { expression with terms, constant := expression.constant * .finite factor } := by
    rw [Expression.scale]
    refine (Update.bind_of_check (if_pos rfl)).trans ?_
    refine (Update.bind_of_ok (looked expression)).trans ?_
    refine (Update.bind_of_check (if_pos product)).trans ?_
    exact Update.bind_of_check added
  refine ⟨_, Expression.after_of_ok success, Expression.scale_sound sound success, ?_⟩
  have constant : Exact.finite 0 + expression.contents.constant * .finite factor =
      expression.constant * .finite factor := Exact.zero_add _
  rw [Expression.contents_scale sound.terms.filed success, Row.plusMultiple,
    constant]
  exact Row.insertScaled_withConstant { constant := Exact.finite 0 } _ _ _

variable (owned : ∀ handle, admitted handle → handle.model = reference)

include owned

theorem makes_addExpression (sound : expression.Sound admitted)
    (otherSound : other.Sound admitted) (factor : Rat) :
    Makes admitted (expression.after (Expression.addExpression other (.finite factor)))
      (expression.contents.plusMultiple other.contents (.finite factor)) := by
  obtain ⟨terms, added⟩ := Terms.exists_addScaled owned sound.terms
    otherSound.terms.handles otherSound.terms.finite factor
  have product : Scalar.isFinite (other.constant * .finite factor) = true :=
    Exact.isFinite_mul otherSound.constant rfl
  have sum := Exact.isFinite_add sound.constant product
  have oneModel := Expression.requireOneModel_of_sound owned sound otherSound
  have success : Expression.addExpression other (.finite factor) expression =
      .ok () { expression with
        terms, constant := expression.constant + other.constant * .finite factor } :=
    Expression.addExpression_eq_ok_iff.mpr ⟨rfl, oneModel, product, sum, terms, added, rfl⟩
  exact ⟨_, Expression.after_of_ok success,
    Expression.addExpression_sound sound otherSound success,
    Expression.contents_addExpression otherSound.terms.filed success⟩

theorem makes_addMultiple (sound : expression.Sound admitted)
    {operand : Value Exact} (given : Operand admitted operand) (factor : Rat) :
    Makes admitted (expression.after (Expression.addMultiple operand (.finite factor)))
      (expression.contents.plusMultiple operand.contents (.finite factor)) := by
  cases given with
  | number amount =>
      have sum : Scalar.isFinite
          (expression.constant + .finite amount * .finite factor) = true :=
        Exact.isFinite_add sound.constant rfl
      have success : Expression.addMultiple
          (.number (.finite amount)) (.finite factor) expression = .ok ()
            { expression with
              constant := expression.constant + .finite amount * .finite factor } :=
        Update.bind_of_check (if_pos sum)
      exact ⟨_, Expression.after_of_ok success, ⟨sound.terms, sum⟩, rfl⟩
  | @handle handle allowed =>
      obtain ⟨terms, added⟩ := Terms.exists_add owned sound.terms allowed
        (show Scalar.isFinite (Exact.finite factor) = true from rfl)
      have success : Expression.addTerm handle.participant (.finite factor)
          expression = .ok () { expression with terms } :=
        Update.bind_of_check added
      refine ⟨_, Expression.after_of_ok success,
        Expression.addTerm_sound sound allowed success, ?_⟩
      rw [Expression.contents_addTerm success]
      exact (Row.plusMultiple_handle sound.constant handle factor).symm
  | expression reachable => exact makes_addExpression owned sound reachable.sound factor

end Updates

section Operators

variable {expression : Expression Exact} {handle : Variable} {operand : Value Exact}

theorem Makes.related {outcome : Except (Error Exact) (Expression Exact)}
    {contents : Row Exact} (makes : Makes admitted outcome contents)
    (relation : Relation) :
    Makes admitted
      (outcome >>= fun made => return { made with relation }) contents := by
  obtain ⟨result, rfl, sound, rfl⟩ := makes
  exact ⟨_, rfl, ⟨sound.terms, sound.constant⟩, rfl⟩

variable (owned : ∀ handle, admitted handle → handle.model = reference)

include owned

theorem makes_times (sound : expression.Sound admitted) (factor : Rat) :
    Makes admitted (expression.times (.finite factor))
      (Row.plusMultiple { constant := .finite 0 } expression.contents
        (.finite factor)) :=
  makes_addExpression owned (Expression.zero_sound expression.relation) sound factor

theorem makes_variable_times (allowed : admitted handle) (factor : Rat) :
    Makes admitted (handle.times (.finite factor))
      (Row.plusMultiple { constant := .finite 0 } (Value.contents (.handle handle))
        (.finite factor)) := by
  have empty : Terms.Sound admitted (OrderedMap.empty : Terms Exact) :=
    Terms.sound_empty
  obtain ⟨terms, added⟩ := Terms.exists_add owned empty allowed
    (show Scalar.isFinite (Exact.finite factor) = true from rfl)
  have success : handle.times (.finite factor) =
      .ok ({ terms, constant := 0 } : Expression Exact) := by
    rw [Variable.times, Expression.assemble, List.foldlM_cons, added]
    rfl
  refine ⟨_, success, ⟨empty.add allowed added, rfl⟩, ?_⟩
  rw [Row.plusMultiple_handle rfl]
  exact Terms.asRow_add 0 added

/-- A variable is made an expression of its own. -/
theorem makes_toExpression (allowed : admitted handle) :
    Makes admitted handle.toExpression (Value.contents (.handle handle)) := by
  have sum : Row.coefficient { constant := Exact.finite 0 } handle.index +
      Exact.finite 1 = 1 := Exact.zero_add 1
  have alone : Row.plusMultiple { constant := Exact.finite 0 }
      (Value.contents (.handle handle)) (.finite 1) =
        Value.contents (.handle handle) := by
    rw [Row.plusMultiple_handle rfl, Row.insert, sum, Exact.nearZero_one]
    rfl
  rw [← alone]
  exact makes_variable_times owned allowed 1

variable {receiver : Value Exact}

/-- Adding to a variable is adding to an expression of its own. -/
private theorem exists_start (given : Operand admitted receiver)
    (object : receiver.isObject = true) :
    ∃ start : Expression Exact, start.Sound admitted ∧
      start.contents = receiver.contents ∧
      ∀ operand,
        Operator.plus.apply receiver operand =
          start.after (Expression.addMultiple operand (.finite 1)) ∧
        Operator.minus.apply receiver operand =
          start.after (Expression.addMultiple operand (.finite (-1))) := by
  cases given with
  | number amount => cases object
  | @handle handle allowed =>
      obtain ⟨start, made, sound, contents⟩ := makes_toExpression owned allowed
      refine ⟨start, sound, contents, fun operand => ⟨?_, ?_⟩⟩
      · change (handle.toExpression >>= fun expression =>
          expression.after (Expression.addMultiple operand 1)) = _
        rw [made]
        rfl
      · change (handle.toExpression >>= fun expression =>
          expression.after (Expression.addMultiple operand (-1))) = _
        rw [made]
        rfl
  | expression reachable =>
      exact ⟨_, reachable.sound, rfl, fun operand => ⟨rfl, rfl⟩⟩

private theorem makes_multiply (given : Operand admitted receiver)
    (object : receiver.isObject = true) (factor : Rat) :
    Makes admitted (Operator.multiply.apply receiver (.number (.finite factor)))
      (Row.plusMultiple { constant := .finite 0 } receiver.contents
        (.finite factor)) := by
  cases given with
  | number amount => cases object
  | handle allowed => exact makes_variable_times owned allowed factor
  | expression reachable => exact makes_times owned reachable.sound factor

/-- A combination is never refused, and adds the multiple of the contents. -/
theorem Combination.makes {start operand : Value Exact} {factor : Rat}
    {outcome : Except (Error Exact) (Expression Exact)}
    (combination : Combination start operand factor outcome)
    (given : Operand admitted start) (summand : Operand admitted operand) :
    Makes admitted outcome
      (start.contents.plusMultiple operand.contents (.finite factor)) := by
  -- A multiple alone is a sum that starts from nothing, so there are two kinds of
  -- cases: those that add to the receiver, and those that multiply it.
  cases combination with
  | addExpression reckon number other expression added factor =>
      cases given with
      | expression reachable =>
          exact makes_addMultiple owned reachable.sound summand factor
  | addMultiple reckon number expression operand factor =>
      cases given with
      | expression reachable =>
          exact makes_addMultiple owned reachable.sound summand factor
  | scale reckon number expression factor =>
      cases summand with
      | expression reachable => exact makes_scale reachable.sound owned factor
  | plus object =>
      obtain ⟨beginning, sound, same, applied⟩ := exists_start owned given object
      rw [(applied operand).1, ← same]
      exact makes_addMultiple owned sound summand 1
  | minus object =>
      obtain ⟨beginning, sound, same, applied⟩ := exists_start owned given object
      rw [(applied operand).2, ← same]
      exact makes_addMultiple owned sound summand (-1)
  | relate object operand relation =>
      obtain ⟨beginning, sound, same, applied⟩ := exists_start owned given object
      have difference : (Operator.relate relation).apply start operand =
          (Operator.minus.apply start operand >>= fun made =>
            return { made with relation }) := by
        cases given with
        | number amount => cases object
        | handle | expression => rfl
      rw [difference, (applied operand).2, ← same]
      exact (makes_addMultiple owned sound summand (-1)).related relation
  | multiply object factor => exact makes_multiply owned summand object factor
  | @divide _ object divisor nonzero =>
      have inverse : (1 : Exact) / .finite divisor = .finite (1 / divisor) :=
        if_neg nonzero
      have quotient : Operator.divide.apply operand (.number (.finite divisor)) =
          Operator.multiply.apply operand (.number (1 / .finite divisor)) := by
        cases summand with
        | number amount => cases object
        | handle | expression => rfl
      rw [quotient, inverse]
      exact makes_multiply owned summand object (1 / divisor)
  | negate object other =>
      have negated : Operator.negate.apply operand other =
          Operator.multiply.apply operand (.number (.finite (-1))) := by
        cases summand with
        | number amount => cases object
        | handle | expression => rfl
      rw [negated]
      exact makes_multiply owned summand object (-1)

end Operators

end LinearProgram
