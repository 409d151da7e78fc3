import LinearProgram.Proofs.Expression.Addition

/-!
# The handles that terms keep

A term is found under the index of its variable, and it keeps one handle of it: the
one with which it was added when there was no such term.  Later additions change its
coefficient only, until the coefficient becomes negligible and the term is dropped.

So the handle of a term was there from the start, or there is an addition that
inserted it and after which the term was never absent.
-/

namespace LinearProgram

variable {α : Type} [Scalar α]

namespace Terms

section Keys

variable {terms start result : Terms α} {added : List (Participant × α)} {index : Index}
  {key : Participant}

/-- The handle with which a term is listed. -/
def key? (terms : Terms α) (index : Index) : Option Participant :=
  (terms.get? index).map Term.participant

/-- Every term is found under the index of its own handle. -/
def Filed (terms : Terms α) : Prop :=
  ∀ entry ∈ terms.toList, entry.2.participant.index = entry.1

/-- Terms to which multiples of participants are added, one after the other. -/
def gather (start : Terms α) (added : List (Participant × α)) :
    Except (Error α) (Terms α) :=
  added.foldlM (fun sum entry => sum.add entry.1 entry.2) start

theorem gather_append (first second : List (Participant × α)) :
    start.gather (first ++ second) =
      (start.gather first >>= fun middle => middle.gather second) :=
  List.foldlM_append

theorem gather_single (participant : Participant) (coefficient : α) :
    start.gather [(participant, coefficient)] = start.add participant coefficient := by
  simp [gather]

theorem addScaled_eq_gather (scaled : List (Term α)) (factor : α) :
    start.addScaled scaled factor = start.gather
      (scaled.map (fun term => (term.participant, term.coefficient * factor))) := by
  rw [gather, List.foldlM_map]
  rfl

/-- A key was there before an addition, or the addition brought it to where there was
none. -/
theorem key?_add {participant : Participant} {coefficient : α}
    (success : terms.add participant coefficient = .ok result)
    (found : result.key? index = some key) :
    terms.key? index = some key ∨
      terms.key? index = none ∧ index = participant.index ∧ key = participant := by
  rw [key?, get?_add success] at found
  split at found
  · rename_i place
    have stays : (joined (terms.get? index) participant coefficient).isSome = true := by
      cases outcome : joined (terms.get? index) participant coefficient with
      | none =>
          rw [outcome] at found
          cases found
      | some term => rfl
    rw [joined_of_isSome stays] at found
    cases present : terms.get? index with
    | none =>
        rw [present] at found
        exact .inr ⟨by rw [key?, present]; rfl, place, (Option.some.inj found).symm⟩
    | some term =>
        rw [present] at found
        exact .inl (by rw [key?, present]; exact found)
  · exact .inl found

/-- A term is there with its key all along while participants are added. -/
def Retains (start : Terms α) (added : List (Participant × α)) (index : Index)
    (key : Participant) : Prop :=
  ∀ part, part <+: added → ∃ middle, start.gather part = .ok middle ∧
    middle.key? index = some key

/-- Among the additions there is one of a participant at whose index there is no term
by then.  The participant becomes the key of one, which stays from then on. -/
def Inserts (start : Terms α) (added : List (Participant × α)) (index : Index)
    (key : Participant) : Prop :=
  ∃ earlier coefficient later middle next,
    added = earlier ++ (key, coefficient) :: later ∧
      start.gather earlier = .ok middle ∧ middle.key? index = none ∧ key.index = index ∧
      middle.add key coefficient = .ok next ∧ next.Retains later index key

theorem retains_nil (found : start.key? index = some key) : start.Retains [] index key := by
  intro part before
  cases List.prefix_nil.mp before
  exact ⟨start, rfl, found⟩

/-- One more addition, after which the key is there. -/
theorem Retains.concat (retains : start.Retains added index key)
    {entry : Participant × α} (success : start.gather (added ++ [entry]) = .ok result)
    (found : result.key? index = some key) : start.Retains (added ++ [entry]) index key := by
  intro part before
  rcases List.prefix_concat_iff.mp before with rfl | shorter
  · exact ⟨result, success, found⟩
  · exact retains part shorter

/-- The key of a term was there from the start, or one of the additions inserted it;
in both cases it never left again. -/
theorem retains_or_inserts (success : start.gather added = .ok result)
    (found : result.key? index = some key) :
    start.Retains added index key ∨ start.Inserts added index key := by
  induction added using List.reverseRecOn generalizing result with
  | nil =>
      cases success
      exact .inl (retains_nil found)
  | append_singleton earlier entry induction =>
      have gathered := success
      rw [gather_append] at success
      obtain ⟨middle, begun, last⟩ := Check.ok_of_bind success
      rw [gather_single] at last
      rcases key?_add last found with before | ⟨absent, place, rfl⟩
      · rcases induction begun before with retains | inserts
        · exact .inl (retains.concat gathered found)
        · obtain ⟨first, coefficient, later, opening, next, rfl, opened, absent, place, addition,
            retains⟩ := inserts
          refine .inr ⟨first, coefficient, later ++ [entry], opening, next, ?_, opened, absent,
            place, addition, ?_⟩
          · simp
          · refine retains.concat ?_ found
            have split : first ++ (key, coefficient) :: later ++ [entry] =
                first ++ ([(key, coefficient)] ++ (later ++ [entry])) := by simp
            rw [split, gather_append, opened] at gathered
            change opening.gather ([(key, coefficient)] ++ (later ++ [entry])) = _ at gathered
            rw [gather_append, gather_single, addition] at gathered
            exact gathered
      · exact .inr ⟨earlier, entry.2, [], middle, result, rfl, begun, absent, place.symm, last,
          retains_nil found⟩

end Keys

section Filing

variable {terms start result : Terms α} {added : List (Participant × α)} {index : Index}
  {key : Participant}

omit [Scalar α] in
theorem filed_empty : Filed (OrderedMap.empty : Terms α) := by
  intro entry membership
  cases membership

omit [Scalar α] in
theorem Filed.index_key (filed : terms.Filed) (found : terms.key? index = some key) :
    key.index = index := by
  obtain ⟨term, present, rfl⟩ := Option.map_eq_some_iff.mp found
  exact filed _ (OrderedMap.get?_eq_some_iff.mp present)

omit [Scalar α] in
theorem filed_iff :
    terms.Filed ↔ ∀ index key, terms.key? index = some key → key.index = index := by
  constructor
  · exact fun filed index key found => filed.index_key found
  · rintro keyed ⟨index, term⟩ membership
    exact keyed index term.participant
      (by rw [key?, OrderedMap.get?_eq_some_iff.mpr membership]; rfl)

theorem Filed.add (filed : terms.Filed) {participant : Participant} {coefficient : α}
    (success : terms.add participant coefficient = .ok result) : result.Filed := by
  rw [filed_iff]
  intro index key found
  rcases key?_add success found with before | ⟨_, place, rfl⟩
  · exact filed.index_key before
  · exact place.symm

theorem Filed.gather (filed : start.Filed) (success : start.gather added = .ok result) :
    result.Filed := by
  apply Check.foldlM_keeps _ filed success
  intro state entry next _ stateFiled stepped
  exact stateFiled.add stepped

/-- What is made by adding to nothing has a key for nothing else but what was added. -/
theorem mem_of_gather (success : gather OrderedMap.empty added = .ok result)
    (found : result.key? index = some key) :
    ∃ coefficient, (key, coefficient) ∈ added ∧ key.index = index := by
  rcases retains_or_inserts success found with retains | inserts
  · obtain ⟨middle, begun, held⟩ := retains [] (List.nil_prefix)
    cases begun
    cases held
  · obtain ⟨earlier, coefficient, later, _, _, rfl, _, _, place, _, _⟩ := inserts
    exact ⟨coefficient, by simp, place⟩

end Filing

end Terms

open Terms (Filed)

/-- The multiples that are added with an operand. -/
def Value.multiples (factor : α) : Value α → List (Participant × α)
  | .handle value => [(value.participant, factor)]
  | .expression _ value =>
    value.termList.map (fun term => (term.participant, term.coefficient * factor))
  | _ => []

namespace Expression

variable {expression other result : Expression α} {index : Index} {key : Participant}

section Updates

theorem gather_of_addMultiple {operand : Value α} {factor : α}
    (success : addMultiple operand factor expression = .ok () result) :
    expression.terms.gather (operand.multiples factor) = .ok result.terms := by
  unfold addMultiple at success
  obtain ⟨accepted, finiteFactor, added⟩ := Update.ok_of_check_bind success
  obtain ⟨rfl, _⟩ := isFinite_of_finite finiteFactor
  cases operand with
  | number amount =>
      obtain ⟨_, rfl⟩ := constant_of_addConstant added
      rfl
  | handle handle =>
      obtain ⟨terms, addition, rfl⟩ := terms_of_addTerm added
      exact (Terms.gather_single _ _).trans addition
  | expression number other =>
      obtain ⟨terms, addition, _, rfl⟩ := parts_of_addExpression added
      rwa [Terms.addScaled_eq_gather] at addition
  | _ => cases added

theorem gather_of_addExpression (number : Nat) {factor : α}
    (success : addExpression other factor expression = .ok () result) :
    expression.terms.gather ((Value.expression number other).multiples factor) =
      .ok result.terms := by
  obtain ⟨terms, addition, _, rfl⟩ := parts_of_addExpression success
  rwa [Terms.addScaled_eq_gather] at addition

/-- A handle and a coefficient as a caller gives them, where they can be added. -/
def pair? (handle coefficient : Value α) : Option (Participant × α) :=
  match coefficient.finite, handle.participant with
  | .ok coefficient, .ok participant => some (participant, coefficient)
  | _, _ => none

/-- The multiples that an edit adds, one after the other. -/
def Edit.added : Edit α → List (Participant × α)
  | addVariable handle coefficient => (pair? handle coefficient).toList
  | addExpression other (.number factor) | addMultiple other (.number factor) =>
    other.multiples factor
  | _ => []

/-- Multiplying drops terms, and has those that stay keep their keys. -/
theorem key?_of_scale {factor : α} (filed : expression.terms.Filed)
    (success : scale factor expression = .ok () result)
    (found : result.terms.key? index = some key) :
    expression.terms.key? index = some key := by
  obtain ⟨terms, addition, _, rfl⟩ := parts_of_scale success
  rw [Terms.addScaled_eq_gather] at addition
  obtain ⟨coefficient, listed, place⟩ := Terms.mem_of_gather addition found
  obtain ⟨term, membership, same⟩ := List.mem_map.mp listed
  obtain ⟨entry, present, rfl⟩ := List.mem_map.mp membership
  obtain ⟨rfl, _⟩ := Prod.mk.inj same
  obtain rfl : entry.1 = index := (filed entry present).symm.trans place
  rw [Terms.key?, OrderedMap.get?_eq_some_iff.mpr present]
  rfl

theorem scalar_eq_ok_iff {value : Value α} {operation : String} {number : α} :
    value.scalar operation = .ok number ↔ value = .number number := by
  cases value <;> simp [Value.scalar, Value.scalarFor]

/-- After an edit, the key of a term is the one that it had, or the edit inserted it. -/
theorem key_of_edit {reckon : Reckoning α} {edit : Edit α} (filed : expression.terms.Filed)
    (success : edit.apply reckon expression = .ok () result)
    (found : result.terms.key? index = some key) :
    expression.terms.Retains edit.added index key ∨
      expression.terms.Inserts edit.added index key := by
  cases edit with
  | addConstant amount =>
      obtain ⟨accepted, _, added⟩ := Update.ok_of_check_bind success
      obtain ⟨_, rfl⟩ := constant_of_addConstant added
      exact .inl (Terms.retains_nil found)
  | addVariable handle coefficient =>
      obtain ⟨accepted, number, named⟩ := Update.ok_of_check_bind success
      obtain ⟨participant, held, added⟩ := Update.ok_of_check_bind named
      obtain ⟨terms, addition, rfl⟩ := terms_of_addTerm added
      have pair : pair? handle coefficient = some (participant, accepted) := by
        rw [pair?, number, held]
      apply Terms.retains_or_inserts _ found
      rw [Edit.added, pair]
      exact (Terms.gather_single _ _).trans addition
  | addExpression other factor =>
      obtain ⟨accepted, number, added⟩ := Update.ok_of_check_bind success
      cases scalar_eq_ok_iff.mp number
      obtain ⟨place, contents, rfl⟩ := expression_of_addContents added
      exact Terms.retains_or_inserts (gather_of_addExpression place added) found
  | addMultiple term factor =>
      obtain ⟨accepted, number, added⟩ := Update.ok_of_check_bind success
      cases scalar_eq_ok_iff.mp number
      exact Terms.retains_or_inserts (gather_of_addMultiple added) found
  | scale factor =>
      obtain ⟨accepted, _, scaled⟩ := Update.ok_of_check_bind success
      exact .inl (Terms.retains_nil (key?_of_scale filed scaled found))
  | setRelation relation =>
      obtain ⟨accepted, _, written⟩ := Update.ok_of_check_bind success
      cases written
      exact .inl (Terms.retains_nil found)

end Updates

section Making

theorem gather_of_assemble {multiples : List (Participant × α)} {constant : α}
    {relation : Relation} (success : assemble multiples constant relation = .ok result) :
    Terms.gather OrderedMap.empty multiples = .ok result.terms := by
  obtain ⟨amount, _, added⟩ := Check.ok_of_bind success
  obtain ⟨terms, addition, written⟩ := Check.ok_of_bind added
  cases written
  exact addition

theorem gather_of_times {factor : α} (number : Nat)
    (success : expression.times factor = .ok result) :
    Terms.gather OrderedMap.empty ((Value.expression number expression).multiples factor) =
      .ok result.terms :=
  gather_of_addExpression number (ok_of_after success)

theorem gather_of_sum {values : List (Value α)} (success : sum values = .ok result) :
    Terms.gather OrderedMap.empty (values.flatMap (Value.multiples 1)) = .ok result.terms := by
  induction values using List.reverseRecOn generalizing result with
  | nil =>
      cases success
      rfl
  | append_singleton earlier value induction =>
      have stated : sum (earlier ++ [value]) =
          (sum earlier >>= fun total => total.plus value) := by
        simp [sum]
      rw [stated] at success
      obtain ⟨total, begun, last⟩ := Check.ok_of_bind success
      rw [List.flatMap_append, List.flatMap_singleton, Terms.gather_append, induction begun]
      exact gather_of_addMultiple (ok_of_after last)

/-- The handles and the coefficients that are paired where an expression is built. -/
def pairs (reckon : Reckoning α) (handles coefficients : Value α) : List (Value α × Value α) :=
  match handles, coefficients with
  | .list handles _, .list coefficients _ => handles.zip coefficients
  | _, _ =>
    match reckon handles.length with
    | .ok length => (List.range' 0 (positions length)).map (fun position =>
        (handles.item position, coefficients.item position))
    | .error _ => []

/-- A pair that can be added.  A missing coefficient counts as one. -/
def joined? (pair : Value α × Value α) : Option (Participant × α) :=
  pair? pair.1 (pair.2.orElse (.number 1))

theorem gather_of_joins {joins : List (Value α × Value α)} {start terms : Terms α}
    (success : joins.foldlM join start = .ok terms) :
    start.gather (joins.filterMap joined?) = .ok terms := by
  induction joins generalizing start with
  | nil => exact success
  | cons pair rest induction =>
      rw [List.foldlM_cons] at success
      obtain ⟨middle, joined, remaining⟩ := Check.ok_of_bind success
      obtain ⟨coefficient, number, named⟩ := Check.ok_of_bind joined
      obtain ⟨participant, held, addition⟩ := Check.ok_of_bind named
      have accepted : joined? pair = some (participant, coefficient) := by
        rw [joined?, pair?, number, held]
      rw [List.filterMap_cons_some accepted, ← List.singleton_append, Terms.gather_append,
        Terms.gather_single, addition]
      exact induction remaining

theorem joinFrom_eq (handles coefficients : Value α) (position count : Nat) (start : Terms α) :
    joinFrom handles coefficients position count start =
      ((List.range' position count).map (fun position =>
        (handles.item position, coefficients.item position))).foldlM join start := by
  induction count generalizing position start with
  | zero => rfl
  | succ count induction =>
      rw [List.range'_succ, List.map_cons, List.foldlM_cons]
      refine congrArg (join start _ >>= ·) ?_
      funext middle
      exact induction (position + 1) middle

/-- What is joined are the pairs, one after the other. -/
theorem foldlM_pairs {reckon : Reckoning α} {handles coefficients : Value α} {terms : Terms α}
    (success : joinAll reckon handles coefficients = .ok terms) :
    (pairs reckon handles coefficients).foldlM join OrderedMap.empty = .ok terms := by
  by_cases lists : ∃ first tag second mark, handles = .list first tag ∧
      coefficients = .list second mark
  · obtain ⟨first, tag, second, mark, rfl, rfl⟩ := lists
    exact success
  · have counting : joinAll reckon handles coefficients = (do
        joinFrom handles coefficients 0 (positions (← reckon handles.length))
          OrderedMap.empty) := by
      unfold joinAll
      split
      · exact (lists ⟨_, _, _, _, rfl, rfl⟩).elim
      · rfl
    rw [counting] at success
    obtain ⟨length, counted, listed⟩ := Check.ok_of_bind success
    have paired : pairs reckon handles coefficients =
        (List.range' 0 (positions length)).map (fun position =>
          (handles.item position, coefficients.item position)) := by
      unfold pairs
      rw [counted]
      split
      · exact (lists ⟨_, _, _, _, rfl, rfl⟩).elim
      · rfl
    rwa [paired, ← joinFrom_eq]

theorem gather_of_build {reckon : Reckoning α} {handles coefficients constant relation : Value α}
    (success : build reckon handles coefficients constant relation = .ok result) :
    Terms.gather OrderedMap.empty ((pairs reckon handles coefficients).filterMap joined?) =
      .ok result.terms := by
  unfold build at success
  split at success
  · obtain ⟨amount, _, related⟩ := Check.ok_of_bind success
    obtain ⟨mark, _, joined⟩ := Check.ok_of_bind related
    obtain ⟨terms, collected, written⟩ := Check.ok_of_bind joined
    cases written
    exact gather_of_joins (foldlM_pairs collected)
  · cases success

end Making

end Expression

/-- A variable stands for the expression with that one term. -/
def Value.own : Value α → List (Participant × α)
  | .handle value => [(value.participant, 1)]
  | _ => []

namespace Operator

/-- The terms that an operator starts from: those of an expression, unless it takes
multiples of them. -/
def start (operator : Operator) (receiver : Value α) : Terms α :=
  match operator, receiver with
  | plus, .expression _ contents | minus, .expression _ contents
  | relate _, .expression _ contents => contents.terms
  | _, _ => OrderedMap.empty

/-- The multiples that an operator adds, one after the other. -/
def added (operator : Operator) (receiver operand : Value α) : List (Participant × α) :=
  match operator, operand with
  | plus, operand => receiver.own ++ operand.multiples 1
  | minus, operand | relate _, operand => receiver.own ++ operand.multiples (-1)
  | multiply, .number factor => receiver.multiples factor
  | divide, .number divisor => receiver.multiples (1 / divisor)
  | negate, _ => receiver.multiples (-1)
  | _, _ => []

variable {operator : Operator} {receiver operand : Value α} {result : Expression α}

section Variables

variable {handle : Variable}

theorem gather_of_times {factor : α} (success : handle.times factor = .ok result) :
    Terms.gather OrderedMap.empty ((Value.handle handle).multiples factor) = .ok result.terms :=
  Expression.gather_of_assemble success

theorem gather_of_combined {factor : α}
    (success : (handle.toExpression >>= fun start =>
      start.after (Expression.addMultiple operand factor)) = .ok result) :
    Terms.gather OrderedMap.empty ((Value.handle handle).own ++ operand.multiples factor) =
      .ok result.terms := by
  obtain ⟨start, begun, last⟩ := Check.ok_of_bind success
  have opened : Terms.gather OrderedMap.empty (Value.handle handle).own = .ok start.terms :=
    Expression.gather_of_assemble begun
  rw [Terms.gather_append, opened]
  exact Expression.gather_of_addMultiple (Expression.ok_of_after last)

theorem gather_of_onVariable (success : operator.onVariable handle operand = .ok result) :
    (operator.start (.handle handle)).gather (operator.added (.handle handle) operand) =
      .ok result.terms := by
  cases operator with
  | plus | minus => exact gather_of_combined success
  | multiply =>
      obtain ⟨factor, number, made⟩ := Check.ok_of_bind success
      cases Expression.scalar_eq_ok_iff.mp number
      exact gather_of_times made
  | divide =>
      obtain ⟨divisor, number, made⟩ := Check.ok_of_bind success
      cases Expression.scalar_eq_ok_iff.mp number
      exact gather_of_times made
  | negate => exact gather_of_times success
  | relate relation =>
      obtain ⟨difference, combined, written⟩ := Check.ok_of_bind success
      cases written
      have gathered := gather_of_combined combined
      exact gathered

end Variables

section Contents

variable {number : Nat} {contents : Expression α}

theorem gather_of_onExpression (success : operator.onExpression contents operand = .ok result) :
    (operator.start (.expression number contents)).gather
        (operator.added (.expression number contents) operand) = .ok result.terms := by
  cases operator with
  | plus | minus => exact Expression.gather_of_addMultiple (Expression.ok_of_after success)
  | multiply =>
      obtain ⟨factor, scalar, made⟩ := Check.ok_of_bind success
      cases Expression.scalar_eq_ok_iff.mp scalar
      exact Expression.gather_of_times number made
  | divide =>
      obtain ⟨divisor, scalar, made⟩ := Check.ok_of_bind success
      cases Expression.scalar_eq_ok_iff.mp scalar
      exact Expression.gather_of_times number made
  | negate => exact Expression.gather_of_times number success
  | relate relation =>
      obtain ⟨difference, combined, written⟩ := Check.ok_of_bind success
      cases written
      have gathered := Expression.gather_of_addMultiple (Expression.ok_of_after combined)
      exact gathered

end Contents

/-- What an operator makes has gathered its terms in that way. -/
theorem gather_of_apply (success : operator.apply receiver operand = .ok result) :
    (operator.start receiver).gather (operator.added receiver operand) = .ok result.terms := by
  cases receiver with
  | handle handle => exact gather_of_onVariable success
  | expression number contents => exact gather_of_onExpression success
  | _ => cases success

end Operator

end LinearProgram
