import LinearProgram.Proofs.Double.Difference
import LinearProgram.Proofs.Double.Product
import LinearProgram.Proofs.Expression.Addition

/-!
# Equality as cancellation

Two expressions are compared by size and by the terms of one of them only.  Since an index has one
term at most, that is a comparison index by index: either both have no term there, or both have
one, of the same model and with nearly the same coefficient.

The same can be said of their difference.  No coefficient that is stored is negligible, so a term
cancels out only against one of the same variable that is close to it.  Hence equality is symmetric,
and the order in which terms were added does not matter.
-/

namespace LinearProgram

/-- What a term states: to whom its variable belongs, and the coefficient. -/
def Term.stated {α : Type} (term : Term α) : Owner × α :=
  (term.participant.owner, term.coefficient)

namespace Expression

variable {admitted : Variable → Prop} {expression other : Expression Float}

/-- What an expression states at an index, if it has a term there. -/
def stated {α : Type} (expression : Expression α) (index : Index) : Option (Owner × α) :=
  (expression.terms.get? index).map Term.stated

/-- Two expressions that differ at most in the order of their terms, and in the handles that
stand for their variables. -/
structure Reordered {α : Type} (expression other : Expression α) : Prop where
  relation : expression.relation = other.relation
  constant : expression.constant = other.constant
  stated : ∀ index, expression.stated index = other.stated index

section Stated

variable {index : Index} {contents : Owner × Float}

theorem exists_term_of_stated (found : expression.stated index = some contents) :
    ∃ term, (index, term) ∈ expression.terms.toList ∧ term.stated = contents := by
  obtain ⟨term, present, states⟩ := Option.map_eq_some_iff.mp found
  exact ⟨term, OrderedMap.get?_eq_some_iff.mp present, states⟩

theorem stated_of_mem {entry : Index × Term Float}
    (membership : entry ∈ expression.terms.toList) :
    expression.stated entry.1 = some entry.2.stated := by
  rw [stated, OrderedMap.get?_eq_some_iff.mpr membership]
  rfl

theorem stated_eq_none_iff : expression.stated index = none ↔ index ∉ expression.terms.keys := by
  rw [stated, Option.map_eq_none_iff, OrderedMap.get?_eq_none_iff]

/-- What is stated is a variable of some model, with a number that counts. -/
theorem Sound.of_stated (sound : expression.Sound admitted)
    (found : expression.stated index = some contents) :
    (∃ reference, contents.1 = .model reference) ∧ Scalar.isFinite contents.2 = true ∧
      Scalar.nearZero contents.2 = false := by
  obtain ⟨term, membership, rfl⟩ := exists_term_of_stated found
  obtain ⟨handle, _, participant⟩ := sound.terms.handles _ membership
  have owner : term.participant.owner = .model handle.model :=
    congrArg Participant.owner participant
  have finite := sound.terms.finite (index, term) membership
  have large := sound.terms.large (index, term) membership
  exact ⟨⟨handle.model, owner⟩, finite, large⟩

end Stated

section Nearness

/-- Two terms of one model whose coefficients are close. -/
def Near (first second : Owner × Float) : Prop :=
  first.1 = second.1 ∧ close first.2 second.2 = true

theorem Near.symm {first second : Owner × Float} (near : Near first second) :
    Near second first :=
  ⟨near.1.symm, (Double.close_comm ..).trans near.2⟩

theorem near_refl {contents : Owner × Float} (finite : Scalar.isFinite contents.2 = true) :
    Near contents contents := by
  refine ⟨rfl, ?_⟩
  rw [Double.close_eq_nearZero, Double.sub_self finite]
  decide

private theorem agrees_iff_near (sound : expression.Sound admitted)
    (otherSound : other.Sound admitted) {index : Index} {term counterpart : Term Float}
    (membership : (index, term) ∈ expression.terms.toList)
    (otherMembership : (index, counterpart) ∈ other.terms.toList) :
    agrees term counterpart = true ↔ Near term.stated counterpart.stated := by
  obtain ⟨⟨reference, owner⟩, _⟩ := sound.of_stated (stated_of_mem membership)
  obtain ⟨⟨otherReference, otherOwner⟩, _⟩ := otherSound.of_stated (stated_of_mem otherMembership)
  simp only [Term.stated] at owner otherOwner
  simp [agrees, Near, Term.stated, owner, otherOwner]

private theorem eq_none_iff_of_rel {first second : Option (Owner × Float)}
    (related : Option.Rel Near first second) : first = none ↔ second = none := by
  cases related with
  | none => exact Iff.rfl
  | some near => exact iff_of_false nofun nofun

private theorem keys_iff_of_rel
    (each : ∀ index, Option.Rel Near (expression.stated index) (other.stated index))
    (index : Index) : index ∈ expression.terms.keys ↔ index ∈ other.terms.keys := by
  rw [← not_iff_not, ← stated_eq_none_iff, ← stated_eq_none_iff]
  exact eq_none_iff_of_rel (each index)

private theorem exists_near {index : Index} {contents : Owner × Float}
    (related : Option.Rel Near (expression.stated index) (other.stated index))
    (found : expression.stated index = some contents) :
    ∃ counterpart, (index, counterpart) ∈ other.terms.toList ∧
      Near contents counterpart.stated := by
  rw [found] at related
  generalize sought : other.stated index = second at related
  cases related with
  | some near =>
      obtain ⟨counterpart, present, rfl⟩ := exists_term_of_stated sought
      exact ⟨counterpart, present, near⟩

/-- All indices of the one are indices of the other, and there are no more of these. -/
private theorem keys_perm_of_size (sizes : expression.size = other.size)
    (within : expression.terms.keys ⊆ other.terms.keys) :
    expression.terms.keys.Perm other.terms.keys := by
  have lengths : other.terms.keys.length ≤ expression.terms.keys.length := by
    rw [OrderedMap.keys, OrderedMap.keys, List.length_map, List.length_map]
    exact Nat.le_of_eq sizes.symm
  exact (List.subperm_of_subset expression.terms.distinct within).perm_of_length_le lengths

private theorem size_eq_of_keys
    (keys : ∀ index, index ∈ expression.terms.keys ↔ index ∈ other.terms.keys) :
    expression.size = other.size := by
  have same : expression.terms.keys.Perm other.terms.keys :=
    (List.perm_ext_iff_of_nodup expression.terms.distinct other.terms.distinct).mpr keys
  have lengths := same.length_eq
  rw [OrderedMap.keys, OrderedMap.keys, List.length_map, List.length_map] at lengths
  exact lengths

/-- Two expressions are equal if they have the same relation, nearly the same constant, and at
each index nearly the same term or none. -/
theorem equals_iff_near (sound : expression.Sound admitted) (otherSound : other.Sound admitted) :
    expression.equals other = true ↔ expression.relation = other.relation ∧
      close expression.constant other.constant = true ∧
      ∀ index, Option.Rel Near (expression.stated index) (other.stated index) := by
  simp only [equals, Bool.and_eq_true, decide_eq_true_eq, List.all_eq_true, and_assoc]
  refine and_congr_right fun _ => ⟨?_, ?_⟩
  · rintro ⟨sizes, near, matched⟩
    have counterparts : ∀ entry ∈ expression.terms.toList, ∃ counterpart,
        (entry.1, counterpart) ∈ other.terms.toList ∧
          Near entry.2.stated counterpart.stated := by
      intro entry membership
      have agreed := matched entry membership
      cases found : other.terms.get? entry.1 with
      | none => rw [found] at agreed; cases agreed
      | some counterpart =>
          rw [found] at agreed
          have present := OrderedMap.get?_eq_some_iff.mp found
          exact ⟨counterpart, present,
            (agrees_iff_near sound otherSound membership present).mp agreed⟩
    have same := keys_perm_of_size sizes (by
      intro index listed
      obtain ⟨entry, membership, rfl⟩ := List.mem_map.mp listed
      obtain ⟨counterpart, present, _⟩ := counterparts entry membership
      exact List.mem_map.mpr ⟨_, present, rfl⟩)
    refine ⟨near, fun index => ?_⟩
    cases found : expression.stated index with
    | none =>
        rw [stated_eq_none_iff, same.mem_iff, ← stated_eq_none_iff] at found
        rw [found]
        exact .none
    | some contents =>
        obtain ⟨term, membership, rfl⟩ := exists_term_of_stated found
        obtain ⟨counterpart, present, near⟩ := counterparts _ membership
        have otherFound : other.stated index = some counterpart.stated := stated_of_mem present
        rw [otherFound]
        exact .some near
  · rintro ⟨near, each⟩
    refine ⟨size_eq_of_keys (keys_iff_of_rel each), near, fun entry membership => ?_⟩
    obtain ⟨counterpart, present, close⟩ :=
      exists_near (each entry.1) (stated_of_mem membership)
    rw [OrderedMap.get?_eq_some_iff.mpr present]
    exact (agrees_iff_near sound otherSound membership present).mpr close

theorem equals_refl (sound : expression.Sound admitted) : expression.equals expression = true := by
  rw [equals_iff_near sound sound]
  refine ⟨rfl, (@near_refl (.nobody, expression.constant) sound.constant).2, ?_⟩
  intro index
  cases found : expression.stated index with
  | none => exact .none
  | some contents => exact .some (near_refl (sound.of_stated found).2.1)

theorem equals_comm (sound : expression.Sound admitted) (otherSound : other.Sound admitted) :
    expression.equals other = other.equals expression := by
  have reversed : ∀ {expression other : Expression Float}, expression.Sound admitted →
      other.Sound admitted → expression.equals other = true →
        other.equals expression = true := by
    intro expression other sound otherSound equal
    obtain ⟨relation, near, each⟩ := (equals_iff_near sound otherSound).mp equal
    refine (equals_iff_near otherSound sound).mpr
      ⟨relation.symm, (Double.close_comm ..).trans near, fun index => ?_⟩
    have related := each index
    generalize expression.stated index = first at related ⊢
    generalize other.stated index = second at related ⊢
    cases related with
    | none => exact .none
    | some near => exact .some near.symm
  rw [Bool.eq_iff_iff]
  exact ⟨reversed sound otherSound, reversed otherSound sound⟩

/-- The order in which terms were added does not count. -/
theorem Reordered.equals_eq {third : Expression Float} (reordered : expression.Reordered other)
    (sound : expression.Sound admitted) (otherSound : other.Sound admitted)
    (thirdSound : third.Sound admitted) : expression.equals third = other.equals third := by
  rw [Bool.eq_iff_iff, equals_iff_near sound thirdSound, equals_iff_near otherSound thirdSound,
    reordered.relation, reordered.constant]
  simp only [reordered.stated]

end Nearness

end Expression

end LinearProgram
