import LinearProgram.Proofs.Expression.Participants

/-!
# Reachable expressions

The expressions that a caller can come by: built from handles, changed in
place, made by operators and sums, or read back from a model.  They are closed
under using one as an operand, also of itself.  All of them are well-formed.

A copy is the same value, so it needs no rule of its own.
-/

namespace LinearProgram

variable {α : Type} [Scalar α] {admitted : Variable → Prop}

namespace Expression

variable {expression result : Expression α}

section Building

/-- A value that takes part as an admitted handle, if it takes part at all. -/
private def Joins (admitted : Variable → Prop) (value : Value α) : Prop :=
  ∀ participant, value.participant = .ok participant →
    ∃ handle, admitted handle ∧ participant = handle.participant

private theorem joins_handle {handle : Variable} (allowed : admitted handle) :
    Joins admitted (.handle handle : Value α) := by
  intro participant found
  cases found
  exact ⟨handle, allowed, rfl⟩

private theorem joins_missing : Joins admitted (.missing : Value α) := by
  intro participant found
  cases found

private theorem join_sound {sum next : Terms α} {term : Value α × Value α}
    (sound : Terms.Sound admitted sum) (joins : Joins admitted term.1)
    (success : join sum term = .ok next) : Terms.Sound admitted next := by
  obtain ⟨coefficient, _, named⟩ := Check.ok_of_bind success
  obtain ⟨participant, found, added⟩ := Check.ok_of_bind named
  obtain ⟨handle, allowed, rfl⟩ := joins participant found
  exact sound.add allowed added

private theorem joinFrom_sound {handles coefficients : Value α}
    (joins : ∀ position, Joins admitted (handles.item position))
    {position count : Nat} {sum next : Terms α}
    (sound : Terms.Sound admitted sum)
    (success : joinFrom handles coefficients position count sum = .ok next) :
    Terms.Sound admitted next := by
  induction count generalizing position sum with
  | zero =>
      cases success
      exact sound
  | succ count induction =>
      obtain ⟨middle, joined, remaining⟩ := Check.ok_of_bind success
      exact induction (join_sound sound (joins position) joined) remaining

private theorem joinAll_sound {reckon : Reckoning α} {handles : List Variable}
    {tag : Nat} {coefficients : Value α} {terms : Terms α}
    (allowed : ∀ handle ∈ handles, admitted handle)
    (success : joinAll reckon (.list (handles.map .handle) tag) coefficients =
      .ok terms) :
    Terms.Sound admitted terms := by
  unfold joinAll at success
  split at success
  · rename_i items _ others _ given
    cases given
    apply Check.foldlM_keeps _ Terms.sound_empty success
    intro sum term next membership sound joined
    obtain ⟨handle, handleMember, named⟩ :=
      List.mem_map.mp (List.of_mem_zip membership).1
    apply join_sound sound _ joined
    rw [← named]
    exact joins_handle (allowed handle handleMember)
  · obtain ⟨length, _, joined⟩ := Check.ok_of_bind success
    apply joinFrom_sound _ Terms.sound_empty joined
    intro position
    simp only [Value.item, List.getElem?_map]
    cases found : handles[position]? with
    | none => exact joins_missing
    | some handle =>
        exact joins_handle (allowed handle (List.mem_of_getElem? found))

theorem build_sound {reckon : Reckoning α} {handles : List Variable}
    {tag : Nat} {coefficients constant relation : Value α}
    (allowed : ∀ handle ∈ handles, admitted handle)
    (success : build reckon (.list (handles.map .handle) tag) coefficients
      constant relation = .ok result) :
    Sound admitted result := by
  unfold build at success
  split at success
  · obtain ⟨amount, finiteConstant, related⟩ := Check.ok_of_bind success
    obtain ⟨mark, _, joined⟩ := Check.ok_of_bind related
    obtain ⟨terms, sum, written⟩ := Check.ok_of_bind joined
    cases written
    refine ⟨joinAll_sound allowed sum, ?_⟩
    cases constant with
    | number given =>
        obtain ⟨rfl, finite⟩ := isFinite_of_finite finiteConstant
        exact finite
    | _ => cases finiteConstant
  · cases success

theorem assemble_sound {multiples : List (Participant × α)} {constant : α}
    {relation : Relation}
    (allowed : ∀ multiple ∈ multiples,
      ∃ handle, admitted handle ∧ multiple.1 = handle.participant)
    (success : assemble multiples constant relation = .ok result) :
    Sound admitted result := by
  obtain ⟨amount, finiteConstant, added⟩ := Check.ok_of_bind success
  obtain ⟨terms, sum, written⟩ := Check.ok_of_bind added
  obtain ⟨rfl, finite⟩ := isFinite_of_finite finiteConstant
  cases written
  exact ⟨Terms.sound_of_foldlM_add Terms.sound_empty allowed sum, finite⟩

theorem toExpression_sound {handles : List Variable} {relation : Relation}
    {row : Row α}
    (allowed : ∀ cell ∈ row.cells.toList, ∀ handle,
      cell.1.get? handles = some handle → admitted handle)
    (success : row.toExpression handles relation = .ok result) :
    Sound admitted result := by
  obtain ⟨kept, found, assembled⟩ := Row.assemble_of_toExpression success
  apply assemble_sound _ assembled
  intro multiple membership
  obtain ⟨cell, cellMember, rfl⟩ := List.mem_map.mp membership
  exact ⟨_, allowed cell cellMember _ (found cell cellMember), rfl⟩

end Building

section Operators

variable [LawfulScalar α]

theorem zero_sound (relation : Relation) :
    Sound admitted (zero relation : Expression α) :=
  ⟨Terms.sound_empty, LawfulScalar.isFinite_zero⟩

variable {operand : Value α}

theorem times_sound {factor : α} (sound : Sound admitted expression)
    (success : expression.times factor = .ok result) :
    Sound admitted result :=
  addExpression_sound (zero_sound _) sound (ok_of_after success)

omit [LawfulScalar α] in
theorem after_addMultiple_sound {factor : α} (sound : Sound admitted expression)
    (operandSound : operand.Sound admitted)
    (success : expression.after (addMultiple operand factor) = .ok result) :
    Sound admitted result :=
  addMultiple_sound sound operandSound (ok_of_after success)

theorem onExpression_sound {operator : Operator}
    (sound : Sound admitted expression) (operandSound : operand.Sound admitted)
    (success : operator.onExpression expression operand = .ok result) :
    Sound admitted result := by
  cases operator with
  | plus => exact after_addMultiple_sound sound operandSound success
  | minus => exact after_addMultiple_sound sound operandSound success
  | multiply =>
      obtain ⟨factor, _, multiplied⟩ := Check.ok_of_bind success
      exact times_sound sound multiplied
  | divide =>
      obtain ⟨divisor, _, divided⟩ := Check.ok_of_bind success
      exact times_sound sound divided
  | negate => exact times_sound sound success
  | relate relation =>
      obtain ⟨difference, subtracted, related⟩ := Check.ok_of_bind success
      have differenceSound : Sound admitted difference :=
        after_addMultiple_sound sound operandSound subtracted
      cases related
      exact ⟨differenceSound.terms, differenceSound.constant⟩

omit [LawfulScalar α] in
private theorem variable_times_sound {handle : Variable} {factor : α}
    (allowed : admitted handle) (success : handle.times factor = .ok result) :
    Sound admitted result := by
  apply assemble_sound _ success
  intro multiple membership
  cases List.mem_singleton.mp membership
  exact ⟨handle, allowed, rfl⟩

omit [LawfulScalar α] in
private theorem variable_after_sound {handle : Variable} {factor : α}
    (allowed : admitted handle) (operandSound : operand.Sound admitted)
    (success : (handle.toExpression >>= fun expression =>
      expression.after (addMultiple operand factor)) = .ok result) :
    Sound admitted result := by
  obtain ⟨start, made, changed⟩ := Check.ok_of_bind success
  have startSound := variable_times_sound allowed made
  exact addMultiple_sound startSound operandSound (ok_of_after changed)

omit [LawfulScalar α] in
theorem onVariable_sound {operator : Operator} {handle : Variable}
    (allowed : admitted handle) (operandSound : operand.Sound admitted)
    (success : operator.onVariable handle operand = .ok result) :
    Sound admitted result := by
  cases operator with
  | plus => exact variable_after_sound allowed operandSound success
  | minus => exact variable_after_sound allowed operandSound success
  | multiply =>
      obtain ⟨factor, _, multiplied⟩ := Check.ok_of_bind success
      exact variable_times_sound allowed multiplied
  | divide =>
      obtain ⟨divisor, _, divided⟩ := Check.ok_of_bind success
      exact variable_times_sound allowed divided
  | negate => exact variable_times_sound allowed success
  | relate relation =>
      obtain ⟨difference, subtracted, related⟩ := Check.ok_of_bind success
      have differenceSound : Sound admitted difference :=
        variable_after_sound allowed operandSound subtracted
      cases related
      exact ⟨differenceSound.terms, differenceSound.constant⟩

theorem apply_sound {operator : Operator} {receiver : Value α}
    (receiverSound : receiver.Sound admitted)
    (operandSound : operand.Sound admitted)
    (success : operator.apply receiver operand = .ok result) :
    Sound admitted result := by
  cases receiver with
  | handle handle => exact onVariable_sound receiverSound operandSound success
  | expression number expression =>
      exact onExpression_sound receiverSound operandSound success
  | _ => cases success

theorem sum_sound {values : List (Value α)}
    (valuesSound : ∀ value ∈ values, value.Sound admitted)
    (success : sum values = .ok result) : Sound admitted result := by
  apply Check.foldlM_keeps _ (zero_sound _) success
  intro total value next membership totalSound added
  exact after_addMultiple_sound totalSound (valuesSound value membership) added

end Operators

/-- An expression that a caller can come by who has the admitted handles. -/
inductive Reachable (admitted : Variable → Prop) : Expression α → Prop
  | built {reckon : Reckoning α} {handles : List Variable} {tag : Nat}
      {coefficients constant relation : Value α} {expression : Expression α}
      (allowed : ∀ handle ∈ handles, admitted handle)
      (success : build reckon (.list (handles.map .handle) tag) coefficients
        constant relation = .ok expression) :
      Reachable admitted expression
  | edited {reckon : Reckoning α} {edit : Edit α} {expression : Expression α}
      (earlier : Reachable admitted expression) (byHandle : edit.ByHandle)
      (handles : ∀ handle, edit.operand = .handle handle → admitted handle)
      (expressions : ∀ number other, edit.operand = .expression number other →
        Reachable admitted other) :
      Reachable admitted (edit.outcome reckon expression)
  | applied {operator : Operator} {receiver operand : Value α}
      {expression : Expression α}
      (receiverHandles : ∀ handle, receiver = .handle handle → admitted handle)
      (receiverExpressions : ∀ number other,
        receiver = .expression number other → Reachable admitted other)
      (operandHandles : ∀ handle, operand = .handle handle → admitted handle)
      (operandExpressions : ∀ number other,
        operand = .expression number other → Reachable admitted other)
      (success : operator.apply receiver operand = .ok expression) :
      Reachable admitted expression
  | summed {values : List (Value α)} {expression : Expression α}
      (handles : ∀ handle, .handle handle ∈ values → admitted handle)
      (expressions : ∀ number other, .expression number other ∈ values →
        Reachable admitted other)
      (success : sum values = .ok expression) :
      Reachable admitted expression
  /-- Read back from a model, over the handles that the model keeps. -/
  | stored {handles : List Variable} {relation : Relation} {row : Row α}
      {expression : Expression α}
      (allowed : ∀ cell ∈ row.cells.toList, ∀ handle,
        cell.1.get? handles = some handle → admitted handle)
      (success : row.toExpression handles relation = .ok expression) :
      Reachable admitted expression

theorem value_sound {value : Value α}
    (handles : ∀ handle, value = .handle handle → admitted handle)
    (expressions : ∀ number other, value = .expression number other →
      Sound admitted other) : value.Sound admitted := by
  cases value with
  | handle handle => exact handles handle rfl
  | expression number other => exact expressions number other rfl
  | _ => trivial

/-- Whatever is done to sound expressions makes sound expressions. -/
theorem Reachable.sound [LawfulScalar α]
    (reachable : Reachable admitted expression) :
    Sound admitted expression := by
  induction reachable with
  | built allowed success => exact build_sound allowed success
  | edited _ byHandle handles _ earlierSound expressionsSound =>
      have operandSound := value_sound handles expressionsSound
      exact Edit.outcome_sound earlierSound byHandle operandSound
  | applied receiverHandles _ operandHandles _ success receiverExpressions
      operandExpressions =>
      have receiverSound := value_sound receiverHandles receiverExpressions
      have operandSound := value_sound operandHandles operandExpressions
      exact apply_sound receiverSound operandSound success
  | summed handles _ success expressionsSound =>
      apply sum_sound _ success
      intro value membership
      apply value_sound
      · rintro handle rfl
        exact handles handle membership
      · rintro number other rfl
        exact expressionsSound number other membership
  | stored allowed success => exact toExpression_sound allowed success

/-- However an expression of doubles came about, each of its variables has one
term, all terms belong to one model, and all its numbers are finite and large
enough. -/
theorem wellFormed_of_reachable {admitted : Variable → Prop}
    {expression : Expression Float}
    (reachable : Reachable admitted expression) : expression.WellFormed :=
  reachable.sound.wellFormed

section Doubled

private def chosen : Variable := { model := ⟨0, "m"⟩, index := .place 0 }

private def single (coefficient : Float) : Expression Float where
  terms := ⟨[(.place 0, ⟨chosen.participant, coefficient⟩)], by simp⟩
  constant := 0

/-- An expression added to itself has its one term still, with twice the
coefficient. -/
theorem wellFormed_doubled : ∃ expression : Expression Float,
    Reachable (fun _ => True) expression ∧ expression.WellFormed ∧
      expression.size = 1 := by
  have built : build (fun _ => .ok 0) (.list ([chosen].map .handle) 0)
      (.list [.number 1] 0) (.number 0) (.text "") = .ok (single 1) := by
    rfl
  have start : Reachable (fun _ => True) (single 1) :=
    .built (fun _ _ => trivial) built
  have doubled : Reachable (fun _ => True)
      ((Edit.addMultiple (.expression 0 (single 1)) (.number 1)).outcome
        (fun _ => .ok 0) (single 1)) := by
    apply Reachable.edited start
    · trivial
    · exact fun _ _ => trivial
    · intro number other same
      cases same
      exact start
  exact ⟨_, doubled, wellFormed_of_reachable doubled, by rfl⟩

end Doubled

end Expression

end LinearProgram
