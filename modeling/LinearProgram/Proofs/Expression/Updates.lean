import LinearProgram.Proofs.Expression.WellFormed

/-!
# Updates keep expressions well-formed

Each update of an expression is taken apart once.  A successful one keeps the
expression sound if its operands are sound, and a failing one leaves the
expression as it was.
-/

namespace LinearProgram

variable {α : Type} [Scalar α]

/-- A value that is sound where it is an operand: an admitted handle, a sound
expression, or neither. -/
def Value.Sound (admitted : Variable → Prop) : Value α → Prop
  | handle value => admitted value
  | expression _ value => value.Sound admitted
  | _ => True

namespace Expression

variable {admitted : Variable → Prop} {expression other result : Expression α}

theorem ok_of_after {update : ExpressionUpdate α Unit}
    (success : expression.after update = .ok result) :
    update expression = .ok () result := by
  unfold after at success
  split at success
  · rename_i outcome
    cases success
    exact outcome
  · cases success

theorem after_of_ok {update : ExpressionUpdate α Unit}
    (success : update expression = .ok () result) :
    expression.after update = .ok result := by
  rw [after, success]

section Constant

/-- What adding a number writes. -/
theorem constant_of_addConstant {amount : α}
    (success : addConstant amount expression = .ok () result) :
    Scalar.isFinite (expression.constant + amount) = true ∧
      result = { expression with constant := expression.constant + amount } := by
  unfold addConstant at success
  obtain ⟨accepted, finiteAmount, remaining⟩ := Update.ok_of_check_bind success
  obtain ⟨rfl, _⟩ := isFinite_of_finite finiteAmount
  obtain ⟨before, _, read, summed⟩ := Update.ok_of_bind remaining
  cases read
  obtain ⟨constant, finiteConstant, written⟩ := Update.ok_of_check_bind summed
  obtain ⟨rfl, finite⟩ := isFinite_of_finite finiteConstant
  cases written
  exact ⟨finite, rfl⟩

theorem addConstant_sound {amount : α} (sound : Sound admitted expression)
    (success : addConstant amount expression = .ok () result) :
    Sound admitted result := by
  obtain ⟨finite, rfl⟩ := constant_of_addConstant success
  exact ⟨sound.terms, finite⟩

theorem atomic_addConstant (amount : α) : Update.Atomic (addConstant amount) := by
  apply Update.Atomic.after_readOnly (Update.readOnly_check _)
  intro accepted
  apply Update.Atomic.after_readOnly Update.readOnly_get
  intro before
  apply Update.Atomic.after_readOnly (Update.readOnly_check _)
  intro constant
  exact (Update.total_set _).atomic

end Constant

section Terms

/-- What adding a multiple of a participant writes. -/
theorem terms_of_addTerm {participant : Participant} {coefficient : α}
    (success : addTerm participant coefficient expression = .ok () result) :
    ∃ terms, expression.terms.add participant coefficient = .ok terms ∧
      result = { expression with terms } := by
  unfold addTerm at success
  obtain ⟨before, _, read, added⟩ := Update.ok_of_bind success
  cases read
  obtain ⟨terms, addition, written⟩ := Update.ok_of_check_bind added
  cases written
  exact ⟨terms, addition, rfl⟩

theorem addTerm_sound {handle : Variable} {coefficient : α}
    (sound : Sound admitted expression) (allowed : admitted handle)
    (success : addTerm handle.participant coefficient expression =
      .ok () result) :
    Sound admitted result := by
  obtain ⟨terms, addition, rfl⟩ := terms_of_addTerm success
  exact ⟨sound.terms.add allowed addition, sound.constant⟩

theorem atomic_addTerm (participant : Participant) (coefficient : α) :
    Update.Atomic (addTerm participant coefficient) := by
  apply Update.Atomic.after_readOnly Update.readOnly_get
  intro before
  apply Update.Atomic.after_readOnly (Update.readOnly_check _)
  intro terms
  exact (Update.total_set _).atomic

/-- A multiple of an expression is added if the two belong to one model and all
numbers stay finite. -/
theorem addExpression_eq_ok_iff {factor : α} :
    addExpression other factor expression = .ok () result ↔
      Scalar.isFinite factor = true ∧ expression.requireOneModel other = .ok () ∧
        Scalar.isFinite (other.constant * factor) = true ∧
        Scalar.isFinite (expression.constant + other.constant * factor) = true ∧
        ∃ terms, expression.terms.addScaled other.termList factor = .ok terms ∧
          result = { expression with
            terms, constant := expression.constant + other.constant * factor } := by
  constructor
  · intro success
    unfold addExpression at success
    obtain ⟨accepted, finiteFactor, opened⟩ := Update.ok_of_check_bind success
    obtain ⟨rfl, finite⟩ := isFinite_of_finite finiteFactor
    obtain ⟨before, _, read, compared⟩ := Update.ok_of_bind opened
    cases read
    obtain ⟨_, oneModel, multiplied⟩ := Update.ok_of_check_bind compared
    obtain ⟨product, finiteProduct, summed⟩ := Update.ok_of_check_bind multiplied
    obtain ⟨rfl, productFinite⟩ := isFinite_of_finite finiteProduct
    obtain ⟨constant, finiteConstant, added⟩ := Update.ok_of_check_bind summed
    obtain ⟨terms, addition, written⟩ := Update.ok_of_check_bind added
    obtain ⟨rfl, constantFinite⟩ := isFinite_of_finite finiteConstant
    cases written
    exact ⟨finite, oneModel, productFinite, constantFinite, terms, addition, rfl⟩
  · rintro ⟨finite, oneModel, product, constant, terms, addition, rfl⟩
    have accepts : ∀ {value : α}, Scalar.isFinite value = true →
        LinearProgram.finite value = .ok value := by
      intro value isFinite
      rw [LinearProgram.finite, if_pos isFinite]
    have looked : ∀ {next : Expression α → ExpressionUpdate α Unit},
        (get >>= next) expression = next expression expression := rfl
    unfold addExpression
    rw [Update.bind_of_check (accepts finite), looked,
      Update.bind_of_check oneModel, Update.bind_of_check (accepts product),
      Update.bind_of_check (accepts constant), Update.bind_of_check addition]
    rfl

/-- What adding a multiple of an expression writes. -/
theorem parts_of_addExpression {factor : α}
    (success : addExpression other factor expression = .ok () result) :
    ∃ terms,
      expression.terms.addScaled other.termList factor = .ok terms ∧
        Scalar.isFinite (expression.constant + other.constant * factor) = true ∧
        result = { expression with
          terms, constant := expression.constant + other.constant * factor } := by
  obtain ⟨_, _, _, constant, terms, addition, written⟩ :=
    addExpression_eq_ok_iff.mp success
  exact ⟨terms, addition, constant, written⟩

theorem addExpression_sound {factor : α} (sound : Sound admitted expression)
    (otherSound : Sound admitted other)
    (success : addExpression other factor expression = .ok () result) :
    Sound admitted result := by
  obtain ⟨terms, addition, finite, rfl⟩ := parts_of_addExpression success
  exact ⟨sound.terms.addScaled otherSound.terms addition, finite⟩

theorem atomic_addExpression (other : Expression α) (factor : α) :
    Update.Atomic (addExpression other factor) := by
  apply Update.Atomic.after_readOnly (Update.readOnly_check _)
  intro accepted
  apply Update.Atomic.after_readOnly Update.readOnly_get
  intro before
  apply Update.Atomic.after_readOnly (Update.readOnly_check _)
  intro owned
  apply Update.Atomic.after_readOnly (Update.readOnly_check _)
  intro product
  apply Update.Atomic.after_readOnly (Update.readOnly_check _)
  intro constant
  apply Update.Atomic.after_readOnly (Update.readOnly_check _)
  intro terms
  exact (Update.total_set _).atomic

/-- What multiplying in place writes. -/
theorem parts_of_scale {factor : α}
    (success : scale factor expression = .ok () result) :
    ∃ terms,
      Terms.addScaled OrderedMap.empty expression.termList factor = .ok terms ∧
        Scalar.isFinite (expression.constant * factor) = true ∧
        result = { expression with
          terms, constant := expression.constant * factor } := by
  unfold scale at success
  obtain ⟨accepted, finiteFactor, opened⟩ := Update.ok_of_check_bind success
  obtain ⟨rfl, _⟩ := isFinite_of_finite finiteFactor
  obtain ⟨before, _, read, multiplied⟩ := Update.ok_of_bind opened
  cases read
  obtain ⟨constant, finiteConstant, added⟩ := Update.ok_of_check_bind multiplied
  obtain ⟨terms, addition, written⟩ := Update.ok_of_check_bind added
  obtain ⟨rfl, finite⟩ := isFinite_of_finite finiteConstant
  cases written
  exact ⟨terms, addition, finite, rfl⟩

theorem scale_sound {factor : α} (sound : Sound admitted expression)
    (success : scale factor expression = .ok () result) :
    Sound admitted result := by
  obtain ⟨terms, addition, finite, rfl⟩ := parts_of_scale success
  exact ⟨Terms.sound_empty.addScaled sound.terms addition, finite⟩

theorem atomic_scale (factor : α) : Update.Atomic (scale factor) := by
  apply Update.Atomic.after_readOnly (Update.readOnly_check _)
  intro accepted
  apply Update.Atomic.after_readOnly Update.readOnly_get
  intro before
  apply Update.Atomic.after_readOnly (Update.readOnly_check _)
  intro constant
  apply Update.Atomic.after_readOnly (Update.readOnly_check _)
  intro terms
  exact (Update.total_set _).atomic

end Terms

section Operand

theorem addMultiple_sound {operand : Value α} {factor : α}
    (sound : Sound admitted expression) (operandSound : operand.Sound admitted)
    (success : addMultiple operand factor expression = .ok () result) :
    Sound admitted result := by
  unfold addMultiple at success
  obtain ⟨accepted, _, added⟩ := Update.ok_of_check_bind success
  cases operand with
  | number amount => exact addConstant_sound sound added
  | handle handle => exact addTerm_sound sound operandSound added
  | expression number other => exact addExpression_sound sound operandSound added
  | _ => cases added

theorem atomic_addMultiple (operand : Value α) (factor : α) :
    Update.Atomic (addMultiple operand factor) := by
  apply Update.Atomic.after_readOnly (Update.readOnly_check _)
  intro accepted
  cases operand with
  | number amount => exact atomic_addConstant _
  | handle handle => exact atomic_addTerm _ _
  | expression number other => exact atomic_addExpression _ _
  | _ => exact (Update.readOnly_throw _).1

/-- Only an expression can be added as one; everything else is refused at the
latest when its terms are asked for. -/
theorem expression_of_addContents {reckon : Reckoning α} {operand : Value α}
    {factor : α}
    (success : addContents reckon operand factor expression = .ok () result) :
    ∃ number other, operand = .expression number other := by
  cases operand with
  | expression number other => exact ⟨number, other, rfl⟩
  | _ =>
      obtain ⟨accepted, _, opened⟩ := Update.ok_of_check_bind success
      obtain ⟨before, _, read, compared⟩ := Update.ok_of_bind opened
      cases read
      dsimp only at compared
      split at compared
      · cases compared
      · obtain ⟨constant, _, multiplied⟩ := Update.ok_of_check_bind compared
        obtain ⟨product, _, summed⟩ := Update.ok_of_check_bind multiplied
        obtain ⟨sum, _, refused⟩ := Update.ok_of_check_bind summed
        cases refused

theorem addContents_sound {reckon : Reckoning α} {operand : Value α} {factor : α}
    (sound : Sound admitted expression) (operandSound : operand.Sound admitted)
    (success : addContents reckon operand factor expression = .ok () result) :
    Sound admitted result := by
  obtain ⟨number, other, rfl⟩ := expression_of_addContents success
  exact addExpression_sound sound operandSound success

theorem atomic_addContents (reckon : Reckoning α) (operand : Value α)
    (factor : α) : Update.Atomic (addContents reckon operand factor) := by
  cases operand with
  | expression number other => exact atomic_addExpression _ _
  | _ =>
      apply Update.Atomic.after_readOnly (Update.readOnly_check _)
      intro accepted
      apply Update.Atomic.after_readOnly Update.readOnly_get
      intro before
      dsimp only
      split
      · exact (Update.readOnly_throw _).1
      · apply Update.Atomic.after_readOnly (Update.readOnly_check _)
        intro constant
        apply Update.Atomic.after_readOnly (Update.readOnly_check _)
        intro product
        apply Update.Atomic.after_readOnly (Update.readOnly_check _)
        intro sum
        exact (Update.readOnly_throw _).1

theorem setRelation_sound {value : Value α} (sound : Sound admitted expression)
    (success : setRelation value expression = .ok () result) :
    Sound admitted result := by
  obtain ⟨relation, _, written⟩ := Update.ok_of_check_bind success
  cases written
  exact ⟨sound.terms, sound.constant⟩

theorem atomic_setRelation (value : Value α) :
    Update.Atomic (setRelation value) := by
  apply Update.Atomic.after_readOnly (Update.readOnly_check _)
  intro relation
  exact (Update.total_modify _).atomic

end Operand

namespace Edit

/-- What takes part in an edit. -/
def operand : Edit α → Value α
  | addVariable handle _ => handle
  | addExpression other _ => other
  | addMultiple term _ => term
  | addConstant _ | scale _ | setRelation _ => .missing

/-- Where a variable is added, it is a handle of one. -/
def ByHandle : Edit α → Prop
  | addVariable handle _ => ∃ chosen, handle = .handle chosen
  | _ => True

/-- The expression after an edit, whether that succeeded or failed. -/
def outcome (reckon : Reckoning α) (edit : Edit α) (expression : Expression α) :
    Expression α :=
  match edit.apply reckon expression with
  | .ok _ changed | .error _ changed => changed

theorem apply_sound {reckon : Reckoning α} {edit : Edit α}
    (sound : Sound admitted expression) (byHandle : edit.ByHandle)
    (operandSound : edit.operand.Sound admitted)
    (success : edit.apply reckon expression = .ok () result) :
    Sound admitted result := by
  cases edit with
  | addConstant amount =>
      obtain ⟨accepted, _, added⟩ := Update.ok_of_check_bind success
      exact addConstant_sound sound added
  | addVariable handle coefficient =>
      obtain ⟨chosen, rfl⟩ := byHandle
      obtain ⟨accepted, _, named⟩ := Update.ok_of_check_bind success
      obtain ⟨participant, found, added⟩ := Update.ok_of_check_bind named
      cases found
      exact addTerm_sound sound operandSound added
  | addExpression other factor =>
      obtain ⟨accepted, _, added⟩ := Update.ok_of_check_bind success
      exact addContents_sound sound operandSound added
  | addMultiple term factor =>
      obtain ⟨accepted, _, added⟩ := Update.ok_of_check_bind success
      exact addMultiple_sound sound operandSound added
  | scale factor =>
      obtain ⟨accepted, _, scaled⟩ := Update.ok_of_check_bind success
      exact scale_sound sound scaled
  | setRelation relation => exact setRelation_sound sound success

/-- An edit that fails changes nothing. -/
theorem atomic_apply (reckon : Reckoning α) (edit : Edit α) :
    Update.Atomic (edit.apply reckon) := by
  cases edit with
  | addConstant amount =>
      apply Update.Atomic.after_readOnly (Update.readOnly_check _)
      exact atomic_addConstant
  | addVariable handle coefficient =>
      apply Update.Atomic.after_readOnly (Update.readOnly_check _)
      intro accepted
      apply Update.Atomic.after_readOnly (Update.readOnly_check _)
      intro participant
      exact atomic_addTerm participant accepted
  | addExpression other factor =>
      apply Update.Atomic.after_readOnly (Update.readOnly_check _)
      exact atomic_addContents reckon other
  | addMultiple term factor =>
      apply Update.Atomic.after_readOnly (Update.readOnly_check _)
      exact atomic_addMultiple term
  | scale factor =>
      apply Update.Atomic.after_readOnly (Update.readOnly_check _)
      exact atomic_scale
  | setRelation relation => exact atomic_setRelation relation

/-- Every edit keeps an expression sound. -/
theorem outcome_sound {reckon : Reckoning α} {edit : Edit α}
    (sound : Sound admitted expression) (byHandle : edit.ByHandle)
    (operandSound : edit.operand.Sound admitted) :
    Sound admitted (edit.outcome reckon expression) := by
  unfold outcome
  cases result : edit.apply reckon expression with
  | ok _ changed => exact apply_sound sound byHandle operandSound result
  | error error changed =>
      have unchanged := atomic_apply reckon edit expression error changed result
      rw [unchanged]
      exact sound

end Edit

end Expression

end LinearProgram
