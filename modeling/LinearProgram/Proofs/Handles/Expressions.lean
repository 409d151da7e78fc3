import LinearProgram.Expression.Comparison
import LinearProgram.Expression.Operators
import LinearProgram.Model.Storage
import LinearProgram.Proofs.Handles.Arguments
import LinearProgram.Proofs.Sorting

/-!
# Expressions with kept handles

A term is filed under the index of its variable and compared by its owner, and handles
of one variable have both in common.  So whichever handles are given, updates of an
expression succeed and fail alike, and leave the same terms in the same order, up to
the handles that the terms keep.
-/

namespace LinearProgram

variable {α : Type} [Scalar α]

open Check (Alike)

namespace Terms

/-- A term is added alike, and the handle that it keeps is one of the same variable. -/
theorem add_kept (terms : Terms α) (participant : Participant) (coefficient : α) :
    terms.kept.add participant.kept coefficient =
      (terms.add participant coefficient).map kept := by
  have coefficients : ((terms.get? participant.index).map Term.kept).map Term.coefficient =
      (terms.get? participant.index).map Term.coefficient := by
    rw [Option.map_map]
    rfl
  have participants : (((terms.get? participant.index).map Term.kept).map
      Term.participant).getD participant.kept =
        (((terms.get? participant.index).map Term.participant).getD participant).kept := by
    cases terms.get? participant.index <;> rfl
  unfold add
  rw [owner?_kept, Participant.owner_kept, Participant.index_kept, get?_kept]
  dsimp only
  rw [coefficients, participants]
  cases finite coefficient with
  | error reason => rfl
  | ok accepted =>
      dsimp only [Bind.bind, Except.bind]
      split
      · rfl
      · cases finite (((terms.get? participant.index).map Term.coefficient).getD 0 + accepted) with
        | error reason => rfl
        | ok sum =>
            dsimp only
            split
            · exact congrArg Except.ok (OrderedMap.map_erase Term.kept terms _).symm
            · exact congrArg Except.ok (OrderedMap.map_insert Term.kept terms _ ⟨_, sum⟩).symm

variable {first second : Terms α}

theorem add_alike (same : first.kept = second.kept) {participant other : Participant}
    (handles : participant.kept = other.kept) (coefficient : α) :
    Alike kept (first.add participant coefficient) (second.add other coefficient) := by
  apply Alike.of_map_eq
  rw [← add_kept, ← add_kept, same, handles]

theorem addScaled_alike (same : first.kept = second.kept) {added others : List (Term α)}
    (corresponding : added.map Term.kept = others.map Term.kept) (factor : α) :
    Alike kept (first.addScaled added factor) (second.addScaled others factor) := by
  apply Check.alike_foldlM _ corresponding same
  intro sum other item counterpart sums items
  have coefficients : item.kept.coefficient = counterpart.kept.coefficient := by rw [items]
  have participants : item.kept.participant = counterpart.kept.participant := by rw [items]
  simp only [Term.kept] at coefficients participants
  rw [coefficients]
  exact add_alike sums participants _

end Terms

namespace Expression

section Reading

variable (expression : Expression α) (participant : Participant)

omit [Scalar α] in
theorem term?_kept : expression.kept.term? participant.kept =
    (expression.term? participant).map Term.kept := by
  rw [term?, terms_kept, Terms.get?_kept, Option.filter_map]
  rfl

omit [Scalar α] in
theorem has_kept : expression.kept.has participant.kept = expression.has participant := by
  rw [has, term?_kept, Option.isSome_map, has]

theorem coefficient_kept :
    expression.kept.coefficient participant.kept = expression.coefficient participant := by
  rw [coefficient, term?_kept, Option.map_map, coefficient]
  rfl

theorem equals_kept (other : Expression α) :
    expression.kept.equals other.kept = expression.equals other := by
  have entries : expression.kept.terms.toList =
      expression.terms.toList.map (fun entry => (entry.1, entry.2.kept)) := rfl
  simp only [equals, size_kept, constant_kept, relation_kept, entries, List.all_map]
  congr 2
  funext entry
  simp only [Function.comp_apply, terms_kept, Terms.get?_kept]
  cases other.terms.get? entry.1 <;> rfl

theorem sortedEntries_kept : expression.kept.sortedEntries =
    expression.sortedEntries.map (fun entry => (entry.1, entry.2.kept)) :=
  Sorting.sort_map (fun _ _ => rfl) expression.terms.toList

theorem key_kept : expression.kept.key = expression.key := by
  rw [key, key, sortedEntries_kept, List.map_map]
  rfl

theorem equalsValue_kept {reckon counterpart : Reckoning α}
    (reckoned : ∀ value, counterpart value.keptMember = reckon value) (other : Value α) :
    expression.kept.equalsValue counterpart other.kept = expression.equalsValue reckon other := by
  have relation : (other.kept.member "relation").identical (.text expression.relation.mark) =
      (other.member "relation").identical (.text expression.relation.mark) := by
    rw [Value.member_kept, Value.identical_keptMember_text]
  have terms : (other.kept.member "terms").size.identical (.count expression.size) =
      (other.member "terms").size.identical (.count expression.size) := by
    have sizes := @Value.keptMember_congr _ _ (other.member "terms") _
      (fun given => given.size.identical (.count expression.size))
      (fun given => by rw [Value.size_kept, Value.identical_keptMember_count])
    rw [Value.member_kept]
    exact sizes
  have constant : counterpart other.kept.constant = reckon other.constant := by
    rw [Value.constant_kept, reckoned]
  cases other with
  | expression number other => exact congrArg Except.ok (expression.equals_kept other)
  | _ =>
      simp only [Value.kept] at relation terms constant
      simp only [Value.kept, equalsValue, relation_kept, size_kept, constant_kept, relation, terms,
        constant, isConstant_kept]

theorem ofExpression_kept : Row.ofExpression expression.kept = Row.ofExpression expression := by
  rw [Row.ofExpression, termList_kept, List.foldl_map]
  rfl

theorem requireOneModel_kept (other : Expression α) :
    expression.kept.requireOneModel other.kept = expression.requireOneModel other := by
  rw [requireOneModel, owner?_kept, owner?_kept, requireOneModel]

end Reading

section Updates

/-- Updates of an expression that are alike, up to the handles that it holds. -/
abbrev UpdatesAlike (first second : ExpressionUpdate α Unit) : Prop :=
  Update.Alike Expression.kept id first second

variable {first second : Expression α}

theorem requireOneModel_of_kept {other counterpart : Expression α}
    (same : first.kept = second.kept) (others : other.kept = counterpart.kept) :
    first.requireOneModel other = second.requireOneModel counterpart := by
  rw [← requireOneModel_kept, same, others, requireOneModel_kept]

theorem after_alike {update counterpart : ExpressionUpdate α Unit}
    (same : first.kept = second.kept) (alike : UpdatesAlike update counterpart) :
    Alike kept (first.after update) (second.after counterpart) := by
  have ends := alike first second same
  unfold after
  generalize update first = outcome at ends
  generalize counterpart second = opposite at ends
  cases ends with
  | ok _ states => exact .ok states
  | error reasons _ => exact .error reasons

theorem addConstant_alike (amount : α) :
    UpdatesAlike (addConstant amount) (addConstant amount) := by
  refine .after_check (fun accepted => .bind_get (fun first second same => ?_))
  have terms := terms_of_kept same
  have relation := relation_of_kept same
  rw [constant_of_kept same]
  exact .after_check (fun constant => .set (kept_congr terms rfl relation))

theorem addTerm_alike {participant other : Participant}
    (handles : participant.kept = other.kept) (coefficient : α) :
    UpdatesAlike (addTerm participant coefficient) (addTerm other coefficient) := by
  refine .bind_get (fun first second same => ?_)
  have constant := constant_of_kept same
  have relation := relation_of_kept same
  refine .bind_check (Terms.add_alike (terms_of_kept same) handles coefficient) ?_
  exact fun terms others corresponding => .set (kept_congr corresponding constant relation)

theorem addExpression_alike {other counterpart : Expression α}
    (others : other.kept = counterpart.kept) (factor : α) :
    UpdatesAlike (addExpression other factor) (addExpression counterpart factor) := by
  refine .after_check (fun accepted => .bind_get (fun first second same => ?_))
  have relation := relation_of_kept same
  rw [requireOneModel_of_kept same others, constant_of_kept others, constant_of_kept same]
  refine .after_check (fun _ => .after_check (fun product => .after_check (fun constant => ?_)))
  refine .bind_check
    (Terms.addScaled_alike (terms_of_kept same) (termList_of_kept others) accepted) ?_
  exact fun terms counterparts corresponding => .set (kept_congr corresponding rfl relation)

theorem addMultiple_alike (operand : Value α) (factor : α) :
    UpdatesAlike (addMultiple operand factor) (addMultiple operand.kept factor) := by
  refine .after_check (fun accepted => ?_)
  have reason := Error.kept_unsupported operand
  cases operand with
  | number amount => exact addConstant_alike _
  | handle handle =>
      have handles : handle.participant.kept = handle.kept.participant.kept := rfl
      exact addTerm_alike handles accepted
  | expression number other => exact addExpression_alike other.kept_kept.symm _
  | _ => exact .throw reason

theorem plus_alike (same : first.kept = second.kept) (operand : Value α) :
    Alike kept (first.plus operand) (second.plus operand.kept) :=
  after_alike same (addMultiple_alike operand 1)

theorem sum_alike {operands others : List (Value α)}
    (corresponding : operands.map Value.kept = others.map Value.kept) :
    Alike kept (sum operands) (sum others) := by
  apply Check.alike_foldlM _ corresponding rfl
  intro first second item other same given
  have early := plus_alike same item
  have late := plus_alike (rfl : second.kept = second.kept) other
  rw [given] at early
  exact early.trans late.symm

theorem assemble_alike {multiples others : List (Participant × α)}
    (corresponding : multiples.map (fun multiple => (multiple.1.kept, multiple.2)) =
      others.map (fun multiple => (multiple.1.kept, multiple.2)))
    (constant : α) (relation : Relation) :
    Alike kept (assemble multiples constant relation) (assemble others constant relation) := by
  have accepted : Alike id (finite constant) (finite constant) := .refl _
  refine accepted.bind (fun amount _ same => ?_)
  cases same
  have added : Alike Terms.kept
      (multiples.foldlM (fun sum term => Terms.add sum term.1 term.2) OrderedMap.empty)
      (others.foldlM (fun sum term => Terms.add sum term.1 term.2) OrderedMap.empty) := by
    apply Check.alike_foldlM _ corresponding rfl
    intro sum counterpart first second sums given
    obtain ⟨participants, coefficients⟩ := Prod.mk.inj given
    rw [coefficients]
    exact Terms.add_alike sums participants _
  exact added.bind (fun _ _ terms => .ok (kept_congr terms rfl rfl))

end Updates

section Building

variable {reckon counterpart : Reckoning α}

/-- What is no expression is refused alike. -/
private theorem addContents_alike_of_others {one other : Value α} {factor : α}
    (none : ∀ number contents, one ≠ .expression number contents)
    (neither : ∀ number contents, other ≠ .expression number contents)
    (owner : one.owner = other.owner) (constant : reckon one.constant = counterpart other.constant)
    (reason : (Error.unsupported one).kept = (Error.unsupported other).kept) :
    UpdatesAlike (addContents reckon one factor) (addContents counterpart other factor) := by
  unfold addContents
  split
  · exact absurd rfl (none _ _)
  · refine .after_check (fun accepted => .bind_get (fun first second same => ?_))
    have owners : first.owner? = second.owner? := by
      rw [← first.owner?_kept, same, owner?_kept]
    rw [owners, owner, constant, constant_of_kept same]
    split
    · exact .throw rfl
    · exact .after_check (fun _ => .after_check (fun _ => .after_check (fun _ => .throw reason)))

theorem addContents_alike (reckoned : ∀ value, counterpart value.keptMember = reckon value)
    (other : Value α) (factor : α) :
    UpdatesAlike (addContents reckon other factor) (addContents counterpart other.kept factor) := by
  have constant : reckon other.constant = counterpart other.kept.constant := by
    rw [Value.constant_kept, reckoned]
  have owner := other.owner_kept.symm
  have reason := Error.kept_unsupported other
  cases other with
  | expression number other => exact addExpression_alike other.kept_kept.symm factor
  | _ => exact addContents_alike_of_others (by simp) (by simp [Value.kept]) owner constant reason

theorem join_alike {sum other : Terms α} (sums : sum.kept = other.kept)
    {term others : Value α × Value α}
    (same : (term.1.kept, term.2.kept) = (others.1.kept, others.2.kept)) :
    Alike Terms.kept (join sum term) (join other others) := by
  obtain ⟨handles, coefficients⟩ := Prod.mk.inj same
  have amount : (term.2.orElse (.number 1)).kept = (others.2.orElse (.number 1)).kept := by
    rw [← Value.orElse_kept, ← Value.orElse_kept, coefficients]
  refine (Value.alike_of_kept Value.finite_alike amount).bind (fun coefficient _ equal => ?_)
  cases equal
  refine (Value.alike_of_kept Value.participant_alike handles).bind (fun _ _ corresponding => ?_)
  exact Terms.add_alike sums corresponding coefficient

theorem joinFrom_alike (handles coefficients : Value α) (position count : Nat)
    {sum other : Terms α} (sums : sum.kept = other.kept) :
    Alike Terms.kept (joinFrom handles coefficients position count sum)
      (joinFrom handles.kept coefficients.kept position count other) := by
  induction count generalizing position sum other with
  | zero => exact .ok sums
  | succ count induction =>
      refine (join_alike sums ?_).bind (fun _ _ further => induction (position + 1) further)
      simp only [Value.item_kept]

theorem joinAll_alike (reckoned : ∀ value, counterpart value.keptMember = reckon value)
    (handles coefficients : Value α) :
    Alike Terms.kept (joinAll reckon handles coefficients)
      (joinAll counterpart handles.kept coefficients.kept) := by
  have length : counterpart handles.kept.length = reckon handles.length := by
    rw [Value.length_kept, reckoned]
  have counted : Alike Terms.kept
      (reckon handles.length >>= fun length =>
        joinFrom handles coefficients 0 (positions length) OrderedMap.empty)
      (counterpart handles.kept.length >>= fun length =>
        joinFrom handles.kept coefficients.kept 0 (positions length) OrderedMap.empty) := by
    rw [length]
    have same : Alike id (reckon handles.length) (reckon handles.length) := .refl _
    refine same.bind (fun result _ equal => ?_)
    cases equal
    exact joinFrom_alike handles coefficients 0 _ rfl
  cases handles with
  | list handles tag =>
      cases coefficients with
      | list coefficients mark =>
          have corresponding : (handles.zip coefficients).map
                (fun term => (term.1.kept, term.2.kept)) =
              ((Value.keptItems handles).zip (Value.keptItems coefficients)).map
                (fun term => (term.1.kept, term.2.kept)) := by
            rw [Value.keptItems_eq_map, Value.keptItems_eq_map, List.zip_map, List.map_map]
            apply List.map_congr_left
            intro term _
            simp
          apply Check.alike_foldlM _ corresponding rfl
          exact fun _ _ _ _ sums given => join_alike sums given
      | _ => exact counted
  | _ => exact counted

theorem build_alike (reckoned : ∀ value, counterpart value.keptMember = reckon value)
    (handles coefficients constant relation : Value α) :
    Alike kept (build reckon handles coefficients constant relation)
      (build counterpart handles.kept coefficients.kept constant.kept relation.kept) := by
  have lengths : handles.kept.length.identical coefficients.kept.length =
      handles.length.identical coefficients.length := by
    rw [Value.length_kept, Value.length_kept, Value.identical_keptMember]
  unfold build
  rw [lengths]
  split
  · refine constant.finite_alike.bind (fun amount _ same => ?_)
    cases same
    refine relation.relation_alike.bind (fun mark _ same => ?_)
    cases same
    refine (joinAll_alike reckoned handles coefficients).bind (fun _ _ terms => ?_)
    exact .ok (kept_congr terms rfl rfl)
  · exact .error (by simp [Error.kept, Value.length_kept])

end Building

end Expression

end LinearProgram
