import LinearProgram.Proofs.Expression.Storage

/-!
# Sums of expressions, term by term

A multiple of one expression is added to another one by adding its terms one
after the other.  Every variable has one term, so what becomes of a term depends
on the two coefficients of its variable only, and the outcome can be stated for
each variable on its own.  Terms that stay keep their places; new ones follow in
the order that they have in the expression that is added.

An expression can be added to itself: its terms are those that it had before.
-/

namespace LinearProgram

variable {α : Type} [Scalar α]

namespace Terms

variable {terms result : Terms α}

/-- What becomes of a term to which another one is added: nothing if the sum is
nearly zero. -/
def joined (present : Option (Term α)) (participant : Participant)
    (coefficient : α) : Option (Term α) :=
  let sum := (present.map Term.coefficient).getD 0 + coefficient
  if Scalar.nearZero sum then none
  else some ⟨(present.map Term.participant).getD participant, sum⟩

theorem isSome_joined (present : Option (Term α)) (participant : Participant)
    (coefficient : α) : (joined present participant coefficient).isSome =
      !Scalar.nearZero ((present.map Term.coefficient).getD 0 + coefficient) := by
  unfold joined
  dsimp only
  split <;> simp_all

/-- A term that stays has the participant that it had. -/
theorem joined_of_isSome {present : Option (Term α)} {participant : Participant}
    {coefficient : α} (stays : (joined present participant coefficient).isSome = true) :
    joined present participant coefficient =
      some ⟨(present.map Term.participant).getD participant,
        (present.map Term.coefficient).getD 0 + coefficient⟩ := by
  rw [isSome_joined, Bool.not_eq_true'] at stays
  rw [joined, stays]
  rfl

/-- What becomes of a term to which a multiple of another one is added, if there is
one. -/
def merged (present added : Option (Term α)) (factor : α) : Option (Term α) :=
  match added with
  | some term => joined present term.participant (term.coefficient * factor)
  | none => present

theorem get?_add {participant : Participant} {coefficient : α}
    (success : terms.add participant coefficient = .ok result) (index : Index) :
    result.get? index = if index = participant.index then
      joined (terms.get? index) participant coefficient else terms.get? index := by
  obtain ⟨_, _, _, rfl⟩ := add_eq_ok_iff.mp success
  by_cases small : Scalar.nearZero
      (terms.coefficient participant.index + coefficient) = true
  · rw [if_pos small, OrderedMap.get?_erase]
    by_cases same : index = participant.index
    · subst same
      rw [if_pos rfl, if_pos rfl]
      exact (if_pos small).symm
    · rw [if_neg same, if_neg same]
  · rw [if_neg small, OrderedMap.get?_insert]
    by_cases same : index = participant.index
    · subst same
      rw [if_pos rfl, if_pos rfl]
      exact (if_neg small).symm
    · rw [if_neg same, if_neg same]

theorem contains_add {participant : Participant} {coefficient : α}
    (success : terms.add participant coefficient = .ok result) {index : Index}
    (different : index ≠ participant.index) :
    result.contains index = terms.contains index := by
  rw [OrderedMap.contains, get?_add success, if_neg different, OrderedMap.contains]

/-- A term that stays keeps its place, and a new one comes last. -/
theorem keys_add {participant : Participant} {coefficient : α}
    (success : terms.add participant coefficient = .ok result) :
    result.keys = terms.keys.filter (fun index => result.contains index) ++
      [participant.index].filter (fun index =>
        !terms.contains index && result.contains index) := by
  have kept : ∀ index ∈ terms.keys, index ≠ participant.index →
      result.contains index = true := by
    intro index listed different
    rw [contains_add success different, OrderedMap.contains_iff]
    exact listed
  obtain ⟨_, _, _, written⟩ := add_eq_ok_iff.mp success
  split at written
  · have gone : result.contains participant.index = false := by
      rw [← written, OrderedMap.contains, OrderedMap.get?_erase, if_pos rfl]
      rfl
    have rest : terms.keys.filter (· ≠ participant.index) =
        terms.keys.filter (fun index => result.contains index) := by
      apply List.filter_congr
      intro index listed
      by_cases same : index = participant.index
      · simp [same, gone]
      · simp [same, kept index listed same]
    rw [← rest, ← written, OrderedMap.keys_erase, written]
    simp [gone]
  · have there : result.contains participant.index = true := by
      rw [← written, OrderedMap.contains, OrderedMap.get?_insert, if_pos rfl]
      rfl
    have all : terms.keys.filter (fun index => result.contains index) =
        terms.keys := by
      apply List.filter_eq_self.mpr
      intro index listed
      by_cases same : index = participant.index
      · rw [same, there]
      · exact kept index listed same
    rw [all, ← written, OrderedMap.keys_insert, written]
    by_cases present : participant.index ∈ terms.keys
    · simp [present, OrderedMap.contains_iff.mpr present]
    · simp [present, OrderedMap.contains_eq_false_iff.mpr present, there]

section Scaled

variable {added : List (Index × Term α)} {factor : α}

theorem get?_addScaled (filed : ∀ entry ∈ added, entry.2.participant.index = entry.1)
    (distinct : (added.map Prod.fst).Nodup)
    (success : terms.addScaled (added.map Prod.snd) factor = .ok result)
    (index : Index) :
    result.get? index =
      merged (terms.get? index) (OrderedMap.find index added) factor := by
  induction added generalizing terms with
  | nil =>
      cases success
      rfl
  | cons entry rest induction =>
      obtain ⟨label, term⟩ := entry
      obtain ⟨next, stepped, remaining⟩ := Check.ok_of_bind success
      have place : term.participant.index = label := filed _ List.mem_cons_self
      rw [List.map_cons, List.nodup_cons] at distinct
      have others := induction
        (fun other membership => filed other (List.mem_cons_of_mem _ membership))
        distinct.2 remaining
      rw [others, get?_add stepped, place]
      by_cases same : label = index
      · subst same
        have absent : OrderedMap.find label rest = none :=
          OrderedMap.find_eq_none_iff.mpr distinct.1
        rw [absent, OrderedMap.find, if_pos rfl, if_pos rfl]
        rfl
      · have apart : index ≠ label := fun equal => same equal.symm
        rw [OrderedMap.find, if_neg same, if_neg apart]

theorem keys_addScaled (filed : ∀ entry ∈ added, entry.2.participant.index = entry.1)
    (distinct : (added.map Prod.fst).Nodup)
    (success : terms.addScaled (added.map Prod.snd) factor = .ok result) :
    result.keys = terms.keys.filter (fun index => result.contains index) ++
      (added.map Prod.fst).filter (fun index =>
        !terms.contains index && result.contains index) := by
  induction added generalizing terms with
  | nil =>
      cases success
      rw [List.map_nil, List.filter_nil, List.append_nil]
      exact (List.filter_eq_self.mpr
        (fun index listed => OrderedMap.contains_iff.mpr listed)).symm
  | cons entry rest induction =>
      obtain ⟨label, term⟩ := entry
      obtain ⟨next, stepped, remaining⟩ := Check.ok_of_bind success
      have place : term.participant.index = label := filed _ List.mem_cons_self
      rw [List.map_cons, List.nodup_cons] at distinct
      have restFiled : ∀ other ∈ rest, other.2.participant.index = other.1 :=
        fun other membership => filed other (List.mem_cons_of_mem _ membership)
      have same : result.contains label = next.contains label := by
        rw [OrderedMap.contains, get?_addScaled restFiled distinct.2 remaining,
          OrderedMap.find_eq_none_iff.mpr distinct.1, OrderedMap.contains]
        rfl
      have first := keys_add stepped
      rw [place] at first
      have others : ∀ {index : Index}, index ≠ label →
          next.contains index = terms.contains index := by
        intro index different
        rw [← place] at different
        exact contains_add stepped different
      have earlier : terms.keys.filter (fun index =>
          result.contains index && next.contains index) =
            terms.keys.filter (fun index => result.contains index) := by
        apply List.filter_congr
        intro index listed
        by_cases here : index = label
        · rw [here, same, Bool.and_self]
        · rw [others here, OrderedMap.contains_iff.mpr listed, Bool.and_true]
      have later : (rest.map Prod.fst).filter (fun index =>
          !next.contains index && result.contains index) =
            (rest.map Prod.fst).filter (fun index =>
              !terms.contains index && result.contains index) := by
        apply List.filter_congr
        intro index listed
        have here : index ≠ label := by
          rintro rfl
          exact distinct.1 listed
        rw [others here]
      have new : [label].filter (fun index => result.contains index &&
          (!terms.contains index && next.contains index)) =
            [label].filter (fun index =>
              !terms.contains index && result.contains index) := by
        apply List.filter_congr
        intro index listed
        cases List.mem_singleton.mp listed
        rw [same, Bool.and_comm, Bool.and_assoc, Bool.and_self]
      rw [induction restFiled distinct.2 remaining, first, List.filter_append,
        List.filter_filter, List.filter_filter, earlier, new, later,
        List.append_assoc, List.map_cons, ← List.filter_append,
        List.singleton_append]

omit [Scalar α] in
/-- Terms that are selected alike by what takes part and by index. -/
private theorem select_participants (terms : Terms α) (takes : Participant → Bool)
    (files : Index → Bool)
    (alike : ∀ entry ∈ terms.toList, takes entry.2.participant = files entry.1) :
    ((terms.values.map Term.participant).filter takes).map some =
      (terms.keys.filter files).map
        (fun index => (terms.get? index).map Term.participant) := by
  have found : ∀ entry ∈ terms.toList,
      some entry.2.participant = (terms.get? entry.1).map Term.participant := by
    intro entry membership
    rw [OrderedMap.get?_eq_some_iff.mpr membership]
    rfl
  have selected : terms.toList.filter (takes ∘ Term.participant ∘ Prod.snd) =
      terms.toList.filter (files ∘ Prod.fst) := List.filter_congr alike
  rw [OrderedMap.values, OrderedMap.keys, List.map_map, List.filter_map,
    List.filter_map, selected, List.map_map, List.map_map]
  apply List.map_congr_left
  intro entry membership
  exact found entry (List.mem_of_mem_filter membership)

/-- Terms that stay have the participants that they had, and new ones those that are
added. -/
theorem participants_addScaled {added : Terms α}
    (filed : ∀ entry ∈ added.toList, entry.2.participant.index = entry.1)
    (success : terms.addScaled added.values factor = .ok result) :
    result.keys.map (fun index => (result.get? index).map Term.participant) =
      (terms.keys.filter (fun index => result.contains index)).map
          (fun index => (terms.get? index).map Term.participant) ++
        (added.keys.filter (fun index =>
          !terms.contains index && result.contains index)).map
            (fun index => (added.get? index).map Term.participant) := by
  have read : ∀ index, result.get? index =
      merged (terms.get? index) (added.get? index) factor :=
    get?_addScaled filed added.distinct success
  have keys : result.keys = terms.keys.filter (fun index => result.contains index) ++
      added.keys.filter (fun index =>
        !terms.contains index && result.contains index) :=
    keys_addScaled filed added.distinct success
  have old : ∀ index ∈ terms.keys.filter (fun index => result.contains index),
      (result.get? index).map Term.participant =
        (terms.get? index).map Term.participant := by
    intro index listed
    obtain ⟨present, stays⟩ := List.mem_filter.mp listed
    rw [← OrderedMap.contains_iff] at present
    obtain ⟨term, found⟩ := Option.isSome_iff_exists.mp present
    rw [OrderedMap.contains, read, found] at stays
    rw [read, found]
    cases addition : added.get? index with
    | none => rfl
    | some other =>
        rw [addition] at stays
        rw [merged, joined_of_isSome stays]
        rfl
  have new : ∀ index ∈ added.keys.filter (fun index =>
      !terms.contains index && result.contains index),
      (result.get? index).map Term.participant =
        (added.get? index).map Term.participant := by
    intro index listed
    obtain ⟨present, appears⟩ := List.mem_filter.mp listed
    rw [← OrderedMap.contains_iff] at present
    obtain ⟨term, found⟩ := Option.isSome_iff_exists.mp present
    rw [Bool.and_eq_true, Bool.not_eq_true', OrderedMap.contains,
      Option.isSome_eq_false_iff, Option.isNone_iff_eq_none, OrderedMap.contains, read,
      found] at appears
    obtain ⟨absent, stays⟩ := appears
    rw [absent] at stays
    rw [read, found, absent, merged, joined_of_isSome stays]
    rfl
  calc result.keys.map (fun index => (result.get? index).map Term.participant)
      = _ := by rw [keys, List.map_append]
    _ = _ := by rw [List.map_congr_left old, List.map_congr_left new]

/-- Terms of one owner are added if all products and all sums are finite. -/
theorem exists_addScaled_iff {reference : ModelRef}
    (owned : terms.Over (fun other => other.owner = .model reference))
    (addedOwned : ∀ entry ∈ added, entry.2.participant.owner = .model reference)
    (filed : ∀ entry ∈ added, entry.2.participant.index = entry.1)
    (distinct : (added.map Prod.fst).Nodup) :
    (∃ result, terms.addScaled (added.map Prod.snd) factor = .ok result) ↔
      ∀ entry ∈ added, Scalar.isFinite (entry.2.coefficient * factor) = true ∧
        Scalar.isFinite (terms.coefficient entry.1 +
          entry.2.coefficient * factor) = true := by
  induction added generalizing terms with
  | nil =>
      refine ⟨?_, fun _ => ⟨terms, rfl⟩⟩
      rintro _ entry membership
      cases membership
  | cons entry rest induction =>
      obtain ⟨label, term⟩ := entry
      have place : term.participant.index = label := filed _ List.mem_cons_self
      have owner : term.participant.owner = .model reference :=
        addedOwned _ List.mem_cons_self
      rw [List.map_cons, List.nodup_cons] at distinct
      -- What the first term becomes does not count for the others.
      have later : ∀ {next : Terms α},
          terms.add term.participant (term.coefficient * factor) = .ok next →
          ((∃ result, next.addScaled (rest.map Prod.snd) factor = .ok result) ↔
            ∀ other ∈ rest, Scalar.isFinite (other.2.coefficient * factor) = true ∧
              Scalar.isFinite (terms.coefficient other.1 +
                other.2.coefficient * factor) = true) := by
        intro next stepped
        rw [induction (owned.add owner stepped)
          (fun other membership => addedOwned other (List.mem_cons_of_mem _ membership))
          (fun other membership => filed other (List.mem_cons_of_mem _ membership))
          distinct.2]
        apply forall₂_congr
        intro other membership
        have apart : other.1 ≠ term.participant.index := by
          rw [place]
          intro same
          apply distinct.1
          rw [← same]
          exact List.mem_map.mpr ⟨other, membership, rfl⟩
        rw [coefficient, get?_add stepped, if_neg apart, coefficient]
      rw [List.forall_mem_cons]
      constructor
      · rintro ⟨result, success⟩
        obtain ⟨next, stepped, remaining⟩ := Check.ok_of_bind success
        obtain ⟨_, product, sum, _⟩ := add_eq_ok_iff.mp stepped
        rw [place] at sum
        exact ⟨⟨product, sum⟩, (later stepped).mp ⟨result, remaining⟩⟩
      · rintro ⟨⟨product, sum⟩, others⟩
        rw [← place] at sum
        have accepted := accepts_owner owned
        rw [← owner] at accepted
        have stepped := add_eq_ok_iff.mpr ⟨accepted, product, sum, rfl⟩
        obtain ⟨result, remaining⟩ := (later stepped).mpr others
        refine ⟨result, ?_⟩
        rw [List.map_cons, addScaled, List.foldlM_cons, stepped]
        exact remaining

end Scaled

end Terms

namespace Expression

variable {admitted : Variable → Prop} {expression other result : Expression α}

/-- What takes part, oldest term first. -/
def participants (expression : Expression α) : List Participant :=
  expression.termList.map Term.participant

/-- What has to hold for a multiple of an expression to be added. -/
structure Addable (expression other : Expression α) (factor : α) : Prop where
  owner : expression.isConstant = true ∨ other.isConstant = true ∨
    expression.owner? = other.owner?
  product : Scalar.isFinite (other.constant * factor) = true
  constant : Scalar.isFinite (expression.constant + other.constant * factor) = true
  products : ∀ handle : Variable, other.has handle.participant = true →
    Scalar.isFinite (other.coefficient handle.participant * factor) = true
  sums : ∀ handle : Variable, other.has handle.participant = true →
    Scalar.isFinite (expression.coefficient handle.participant +
      other.coefficient handle.participant * factor) = true

/-- The result is the expression with a multiple of the other one. -/
structure SumsTo (expression other : Expression α) (factor : α)
    (result : Expression α) : Prop where
  relation : result.relation = expression.relation
  constant : result.constant = expression.constant + other.constant * factor
  /-- A variable of the other expression is dropped if the sum of its
  coefficients is negligible. -/
  has : ∀ handle : Variable, other.has handle.participant = true →
    (result.has handle.participant = true ↔
      Scalar.epsilon < Scalar.magnitude (expression.coefficient handle.participant +
        other.coefficient handle.participant * factor))
  sum : ∀ handle : Variable, other.has handle.participant = true →
    result.has handle.participant = true →
      result.coefficient handle.participant =
        expression.coefficient handle.participant +
          other.coefficient handle.participant * factor
  kept : ∀ handle : Variable, other.has handle.participant = false →
    result.has handle.participant = expression.has handle.participant ∧
      result.coefficient handle.participant =
        expression.coefficient handle.participant
  /-- Old terms keep their places, and new ones follow in the order of the other
  expression. -/
  order : result.participants = expression.participants.filter result.has ++
    other.participants.filter (fun participant =>
      !expression.has participant && result.has participant)

section Owner

theorem Sound.over_of_owner (sound : expression.Sound admitted)
    {reference : ModelRef} (owner : expression.isConstant = true ∨
      expression.owner? = some (.model reference)) :
    expression.Over (fun other => other.owner = .model reference) := by
  intro entry membership
  have found := owner?_eq_of_mem sound (List.mem_map_of_mem membership)
  rcases owner with constant | owner
  · have empty : expression.terms.toList = [] := by
      simpa [isConstant, OrderedMap.size] using constant
    rw [empty] at membership
    cases membership
  · rw [owner] at found
    exact (Option.some.inj found).symm

/-- The handles of an expression all belong to the model that owns it. -/
theorem Sound.of_owner (sound : expression.Sound admitted) {reference : ModelRef}
    (owner : expression.owner? = none ∨ expression.owner? = some (.model reference)) :
    expression.Sound (fun handle => handle.model = reference) := by
  have spans : expression.Over (fun other => other.owner = .model reference) := by
    apply sound.over_of_owner
    rcases sound.owner_cases with ⟨constant, _⟩ | ⟨_, handle, _, stated⟩
    · exact .inl constant
    · rcases owner with none | owned
      · cases none.symm.trans stated
      · exact .inr owned
  refine ⟨{ sound.terms with handles := ?_ }, sound.constant⟩
  intro entry membership
  obtain ⟨handle, _, participant⟩ := sound.terms.handles entry membership
  have owned := spans entry membership
  rw [participant] at owned
  exact ⟨handle, Owner.model.inj owned, participant⟩

/-- All handles of an expression belong to one model. -/
theorem Sound.exists_model (sound : expression.Sound admitted) :
    ∃ reference, expression.Sound (fun handle => handle.model = reference) := by
  rcases sound.owner_cases with ⟨_, nobody⟩ | ⟨_, handle, _, owner⟩
  · exact ⟨⟨0, ""⟩, sound.of_owner (.inl nobody)⟩
  · exact ⟨handle.model, sound.of_owner (.inr owner)⟩

/-- Expressions that can be combined belong to one model. -/
theorem exists_common_owner (sound : expression.Sound admitted)
    (otherSound : other.Sound admitted)
    (owner : expression.isConstant = true ∨ other.isConstant = true ∨
      expression.owner? = other.owner?) :
    ∃ reference : ModelRef,
      expression.Over (fun participant => participant.owner = .model reference) ∧
        other.Over (fun participant => participant.owner = .model reference) := by
  rcases sound.owner_cases with ⟨constant, nobody⟩ | ⟨terms, handle, _, ours⟩
  · rcases otherSound.owner_cases with
      ⟨otherConstant, _⟩ | ⟨_, handle, _, theirs⟩
    · exact ⟨⟨0, ""⟩, sound.over_of_owner (.inl constant),
        otherSound.over_of_owner (.inl otherConstant)⟩
    · exact ⟨handle.model, sound.over_of_owner (.inl constant),
        otherSound.over_of_owner (.inr theirs)⟩
  · refine ⟨handle.model, sound.over_of_owner (.inr ours), otherSound.over_of_owner ?_⟩
    rcases owner with constant | constant | same
    · rw [terms] at constant
      cases constant
    · exact .inl constant
    · exact .inr (same ▸ ours)

end Owner

section Reading

variable {reference : ModelRef}

omit [Scalar α] in
private theorem term?_of_over
    (owned : expression.Over (fun other => other.owner = .model reference))
    {participant : Participant} (owner : participant.owner = .model reference) :
    expression.term? participant = expression.terms.get? participant.index := by
  unfold term?
  cases found : expression.terms.get? participant.index with
  | none => rfl
  | some term =>
      have membership := OrderedMap.get?_eq_some_iff.mp found
      have same : term.participant.owner = .model reference := owned _ membership
      simp [same, owner]

omit [Scalar α] in
theorem has_of_over
    (owned : expression.Over (fun other => other.owner = .model reference))
    {participant : Participant} (owner : participant.owner = .model reference) :
    expression.has participant = expression.terms.contains participant.index := by
  rw [has, term?_of_over owned owner]
  rfl

theorem coefficient_of_over
    (owned : expression.Over (fun other => other.owner = .model reference))
    {participant : Participant} (owner : participant.owner = .model reference) :
    expression.coefficient participant =
      expression.terms.coefficient participant.index := by
  rw [coefficient, term?_of_over owned owner]
  rfl

omit [Scalar α] in
/-- An expression of one model has no variable of another one. -/
theorem term?_of_stranger
    (owned : expression.Over (fun other => other.owner = .model reference))
    {handle : Variable} (stranger : handle.model ≠ reference) :
    expression.term? handle.participant = none := by
  unfold term?
  rw [Option.filter_eq_none_iff]
  intro term found
  have same : term.participant.owner = .model reference :=
    owned _ (OrderedMap.get?_eq_some_iff.mp found)
  rw [same]
  simp [Variable.participant, Ne.symm stranger]

/-- A variable that occurs is one of the model, and its coefficient is listed. -/
theorem exists_entry_of_has
    (owned : expression.Over (fun other => other.owner = .model reference))
    {handle : Variable} (present : expression.has handle.participant = true) :
    handle.participant.owner = .model reference ∧
      ∃ term, (handle.index, term) ∈ expression.terms.toList ∧
        expression.coefficient handle.participant = term.coefficient := by
  by_cases same : handle.model = reference
  · have owner : handle.participant.owner = .model reference :=
      congrArg Owner.model same
    rw [has, term?_of_over owned owner] at present
    obtain ⟨term, found⟩ := Option.isSome_iff_exists.mp present
    refine ⟨owner, term, OrderedMap.get?_eq_some_iff.mp found, ?_⟩
    rw [coefficient, term?_of_over owned owner, found]
    rfl
  · rw [has, term?_of_stranger owned same] at present
    cases present

/-- What is listed occurs. -/
theorem has_of_entry
    (owned : expression.Over (fun other => other.owner = .model reference))
    (filed : ∀ entry ∈ expression.terms.toList,
      entry.2.participant.index = entry.1)
    {entry : Index × Term α} (membership : entry ∈ expression.terms.toList) :
    expression.has entry.2.participant = true ∧
      expression.coefficient entry.2.participant = entry.2.coefficient := by
  have owner : entry.2.participant.owner = .model reference := owned entry membership
  have found := OrderedMap.get?_eq_some_iff.mpr membership
  rw [has, coefficient, term?_of_over owned owner, filed entry membership, found]
  exact ⟨rfl, rfl⟩

end Reading

section Adding

variable {factor : α}

/-- A multiple of an expression is added exactly if all numbers stay finite and the
variables belong to one model. -/
theorem exists_addExpression_iff (sound : expression.Sound admitted)
    (otherSound : other.Sound admitted) (finite : Scalar.isFinite factor = true) :
    (∃ result, addExpression other factor expression = .ok () result) ↔
      Addable expression other factor := by
  -- In expressions of one model, products and sums are those of the terms listed.
  have numbers : ∀ {reference : ModelRef},
      expression.Over (fun participant => participant.owner = .model reference) →
      other.Over (fun participant => participant.owner = .model reference) →
      ((∃ terms, expression.terms.addScaled other.termList factor = .ok terms) ↔
        ∀ handle : Variable, other.has handle.participant = true →
          Scalar.isFinite (other.coefficient handle.participant * factor) = true ∧
            Scalar.isFinite (expression.coefficient handle.participant +
              other.coefficient handle.participant * factor) = true) := by
    intro reference ours theirs
    refine (Terms.exists_addScaled_iff ours theirs otherSound.terms.filed
      other.terms.distinct).trans ?_
    constructor
    · intro listed handle present
      obtain ⟨owner, term, membership, coefficient⟩ :=
        exists_entry_of_has theirs present
      rw [coefficient, coefficient_of_over ours owner]
      exact listed _ membership
    · intro occurring entry membership
      obtain ⟨handle, _, participant⟩ := otherSound.terms.handles entry membership
      obtain ⟨present, coefficient⟩ :=
        has_of_entry theirs otherSound.terms.filed membership
      have owner : entry.2.participant.owner = .model reference :=
        theirs entry membership
      have place := otherSound.terms.filed entry membership
      rw [participant] at present coefficient owner place
      have finite := occurring handle present
      rw [coefficient, coefficient_of_over ours owner, place] at finite
      exact finite
  constructor
  · rintro ⟨result, success⟩
    obtain ⟨_, oneModel, product, constant, terms, addition, _⟩ :=
      addExpression_eq_ok_iff.mp success
    have owner := (requireOneModel_eq_ok_iff sound otherSound).mp oneModel
    obtain ⟨reference, ours, theirs⟩ := exists_common_owner sound otherSound owner
    have each := (numbers ours theirs).mp ⟨terms, addition⟩
    exact {
      owner, product, constant
      products := fun handle present => (each handle present).1
      sums := fun handle present => (each handle present).2 }
  · rintro ⟨owner, product, constant, products, sums⟩
    obtain ⟨reference, ours, theirs⟩ := exists_common_owner sound otherSound owner
    obtain ⟨terms, addition⟩ := (numbers ours theirs).mpr
      (fun handle present => ⟨products handle present, sums handle present⟩)
    have oneModel := (requireOneModel_eq_ok_iff sound otherSound).mpr owner
    exact ⟨_, addExpression_eq_ok_iff.mpr
      ⟨finite, oneModel, product, constant, terms, addition, rfl⟩⟩

/-- What a variable has after a multiple of an expression was added. -/
theorem sumsTo_of_addExpression {expression other result : Expression Float}
    {factor : Float} (sound : expression.Sound admitted)
    (otherSound : other.Sound admitted)
    (success : addExpression other factor expression = .ok () result) :
    SumsTo expression other factor result := by
  obtain ⟨finite, oneModel, _, _, terms, addition, written⟩ :=
    addExpression_eq_ok_iff.mp success
  have owner := (requireOneModel_eq_ok_iff sound otherSound).mp oneModel
  obtain ⟨reference, ours, theirs⟩ := exists_common_owner sound otherSound owner
  have same : terms = result.terms := by rw [written]
  subst same
  have spans := over_addExpression ours theirs success
  have resultSound := addExpression_sound sound otherSound success
  have read : ∀ index, result.terms.get? index =
      Terms.merged (expression.terms.get? index) (other.terms.get? index) factor :=
    Terms.get?_addScaled otherSound.terms.filed other.terms.distinct addition
  -- A variable of the other expression has the joined term.
  have joins : ∀ handle : Variable, other.has handle.participant = true →
      ∃ participant, result.term? handle.participant =
        Terms.joined (expression.terms.get? handle.index) participant
          (other.coefficient handle.participant * factor) ∧
        expression.coefficient handle.participant =
          ((expression.terms.get? handle.index).map Term.coefficient).getD 0 := by
    intro handle present
    obtain ⟨owner, term, membership, coefficient⟩ := exists_entry_of_has theirs present
    refine ⟨term.participant, ?_, coefficient_of_over ours owner⟩
    rw [term?_of_over spans owner, coefficient]
    have found := read handle.index
    rw [OrderedMap.get?_eq_some_iff.mpr membership] at found
    exact found
  constructor
  case relation => rw [written]
  case constant => rw [written]
  case has =>
    intro handle present
    obtain ⟨participant, found, coefficient⟩ := joins handle present
    have addable := (exists_addExpression_iff sound otherSound finite).mp ⟨_, success⟩
    rw [Double.epsilon_lt_magnitude_iff (addable.sums handle present), has, found,
      Terms.isSome_joined, ← coefficient, Bool.not_eq_true']
  case sum =>
    intro handle present stays
    obtain ⟨participant, found, coefficient⟩ := joins handle present
    rw [has, found] at stays
    rw [Expression.coefficient, found, Terms.joined_of_isSome stays, coefficient]
    rfl
  case kept =>
    intro handle absent
    have same : result.term? handle.participant =
        expression.term? handle.participant := by
      by_cases belongs : handle.model = reference
      · have owner : handle.participant.owner = .model reference :=
          congrArg Owner.model belongs
        rw [has_of_over theirs owner, OrderedMap.contains,
          Option.isSome_eq_false_iff, Option.isNone_iff_eq_none] at absent
        rw [term?_of_over spans owner, term?_of_over ours owner, read, absent]
        rfl
      · rw [term?_of_stranger spans belongs, term?_of_stranger ours belongs]
    rw [has, Expression.coefficient, same]
    exact ⟨rfl, rfl⟩
  case order =>
    have stays : ∀ {terms : Terms Float},
        Terms.Over (fun participant => participant.owner = .model reference) terms →
        (∀ entry ∈ terms.toList, entry.2.participant.index = entry.1) →
        ∀ entry ∈ terms.toList,
          result.has entry.2.participant = result.terms.contains entry.1 := by
      intro terms owned filed entry membership
      rw [has_of_over spans (owned entry membership), filed entry membership]
    have new : ∀ entry ∈ other.terms.toList,
        (!expression.has entry.2.participant && result.has entry.2.participant) =
          (!expression.terms.contains entry.1 && result.terms.contains entry.1) := by
      intro entry membership
      rw [stays theirs otherSound.terms.filed entry membership,
        has_of_over ours (theirs entry membership),
        otherSound.terms.filed entry membership]
    apply List.map_injective_iff.mpr (Option.some_injective _)
    have all := Terms.select_participants result.terms (fun _ => true)
      (fun _ => true) (fun _ _ => rfl)
    rw [List.filter_true, List.filter_true] at all
    rw [participants, participants, participants, termList, termList, termList, all,
      List.map_append,
      Terms.select_participants expression.terms _ result.terms.contains
        (stays ours sound.terms.filed),
      Terms.select_participants other.terms _ (fun index =>
        !expression.terms.contains index && result.terms.contains index) new]
    exact Terms.participants_addScaled otherSound.terms.filed addition

end Adding

end Expression

end LinearProgram
