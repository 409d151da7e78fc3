import LinearProgram.Expression.Operators
import LinearProgram.Proofs.Double.Order
import LinearProgram.Proofs.OrderedMap
import LinearProgram.Proofs.Outcome

/-!
# Well-formed expressions

What holds of every expression that was put together from handles: each
variable has at most one term, filed under its index, all terms belong to one
model, and no number is infinite, undefined or negligible.

The owner of a new term is compared with the oldest term only.  That is enough
because the terms that are there have one owner already; the invariant has to
be carried through every update for this reason.
-/

namespace LinearProgram

variable {α : Type} [Scalar α]

/-- An expression as every reader of it may expect one. -/
structure Expression.WellFormed (expression : Expression α) : Prop where
  /-- No variable has two terms. -/
  indices : (expression.termList.map
    (fun term => term.participant.index)).Nodup
  filed : ∀ entry ∈ expression.terms.toList,
    entry.2.participant.index = entry.1
  /-- The owner of the oldest term is that of every term. -/
  owner : ∀ term ∈ expression.termList,
    expression.owner? = some term.participant.owner
  coefficients : ∀ term ∈ expression.termList,
    Scalar.isFinite term.coefficient = true ∧
      Scalar.epsilon < Scalar.magnitude term.coefficient
  constant : Scalar.isFinite expression.constant = true
  relation : expression.relation.mark ∈ ["", "=", "<", ">"]

/-- Terms of admitted handles, as they are while an expression is changed. -/
structure Terms.Sound (admitted : Variable → Prop) (terms : Terms α) :
    Prop where
  filed : ∀ entry ∈ terms.toList, entry.2.participant.index = entry.1
  handles : ∀ entry ∈ terms.toList,
    ∃ handle, admitted handle ∧ entry.2.participant = handle.participant
  owners : ∀ entry ∈ terms.toList, ∀ other ∈ terms.toList,
    entry.2.participant.owner = other.2.participant.owner
  finite : ∀ entry ∈ terms.toList,
    Scalar.isFinite entry.2.coefficient = true
  large : ∀ entry ∈ terms.toList,
    Scalar.nearZero entry.2.coefficient = false

theorem isFinite_of_finite {value result : α}
    (success : finite value = .ok result) :
    result = value ∧ Scalar.isFinite value = true := by
  unfold LinearProgram.finite at success
  split at success
  · rename_i isFinite
    cases success
    exact ⟨rfl, isFinite⟩
  · cases success

namespace Terms

variable {admitted : Variable → Prop} {terms result : Terms α}

theorem sound_empty : Sound admitted (OrderedMap.empty : Terms α) where
  filed := by simp [OrderedMap.empty]
  handles := by simp [OrderedMap.empty]
  owners := by simp [OrderedMap.empty]
  finite := by simp [OrderedMap.empty]
  large := by simp [OrderedMap.empty]

/-- The coefficient that is filed under an index, zero if there is none. -/
def coefficient (terms : Terms α) (index : Index) : α :=
  ((terms.get? index).map Term.coefficient).getD 0

/-- A term is accepted if it has the owner of the oldest one and no number is
infinite or undefined.  Then its coefficient is added, and the sum is dropped if
it is nearly zero. -/
theorem add_eq_ok_iff {participant : Participant} {coefficient : α} :
    terms.add participant coefficient = .ok result ↔
      terms.owner?.any (fun owner => !owner.same participant.owner) = false ∧
        Scalar.isFinite coefficient = true ∧
        Scalar.isFinite (terms.coefficient participant.index + coefficient) =
          true ∧
        (if Scalar.nearZero (terms.coefficient participant.index + coefficient)
            then terms.erase participant.index
          else terms.insert participant.index
            ⟨((terms.get? participant.index).map Term.participant).getD
              participant, terms.coefficient participant.index + coefficient⟩) =
          result := by
  unfold Terms.add Terms.coefficient
  constructor
  · intro success
    obtain ⟨accepted, finiteCoefficient, remaining⟩ := Check.ok_of_bind success
    obtain ⟨rfl, finite⟩ := isFinite_of_finite finiteCoefficient
    dsimp only at remaining
    split at remaining
    · cases remaining
    · rename_i owned
      obtain ⟨sum, finiteSum, written⟩ := Check.ok_of_bind remaining
      obtain ⟨rfl, sumFinite⟩ := isFinite_of_finite finiteSum
      cases written
      exact ⟨by simpa using owned, finite, sumFinite, rfl⟩
  · rintro ⟨owned, finite, sumFinite, rfl⟩
    simp [LinearProgram.finite, owned, finite, sumFinite, bind, pure,
      Except.bind, Except.pure]

/-- What adding a term does, if the term is accepted. -/
theorem add_ok_cases {participant : Participant} {coefficient : α}
    (success : terms.add participant coefficient = .ok result) :
    terms.owner?.any (fun owner => !owner.same participant.owner) = false ∧
      ∃ sum, Scalar.isFinite sum = true ∧
        (result = terms.erase participant.index ∨
          Scalar.nearZero sum = false ∧ result =
            terms.insert participant.index
              ⟨((terms.get? participant.index).map Term.participant).getD
                participant, sum⟩) := by
  obtain ⟨owned, _, sumFinite, rfl⟩ := add_eq_ok_iff.mp success
  refine ⟨owned, _, sumFinite, ?_⟩
  split
  · exact .inl rfl
  · rename_i large
    exact .inr ⟨by simpa using large, rfl⟩

theorem Sound.erase (sound : Sound admitted terms) (index : Index) :
    Sound admitted (terms.erase index) := by
  have kept : ∀ entry ∈ (terms.erase index).toList, entry ∈ terms.toList := by
    intro entry membership
    exact (OrderedMap.mem_erase_iff.mp membership).2
  exact {
    filed := fun entry membership => sound.filed entry (kept entry membership)
    handles := fun entry membership =>
      sound.handles entry (kept entry membership)
    owners := fun entry membership other otherMembership =>
      sound.owners entry (kept entry membership) other
        (kept other otherMembership)
    finite := fun entry membership =>
      sound.finite entry (kept entry membership)
    large := fun entry membership => sound.large entry (kept entry membership) }

/-- Terms with one owner admit any term of the owner of the oldest one. -/
theorem Sound.owner_eq (sound : Sound admitted terms) {handle : Variable}
    (accepted : terms.owner?.any
      (fun owner => !owner.same handle.participant.owner) = false) :
    ∀ entry ∈ terms.toList,
      entry.2.participant.owner = handle.participant.owner := by
  intro entry membership
  cases listed : terms.toList with
  | nil =>
      rw [listed] at membership
      cases membership
  | cons oldest rest =>
      have oldestMember : oldest ∈ terms.toList := by
        rw [listed]
        exact List.mem_cons_self
      obtain ⟨owned, _, participant⟩ := sound.handles oldest oldestMember
      have first : terms.owner? = some oldest.2.participant.owner := by
        simp [Terms.owner?, OrderedMap.first?, OrderedMap.values, listed]
      rw [sound.owners entry membership oldest oldestMember]
      rw [first, participant] at accepted
      rw [participant]
      simpa [Variable.participant] using accepted

/-- The participant under which a sum of terms is filed. -/
private theorem kept_participant (sound : Sound admitted terms)
    {handle : Variable} (allowed : admitted handle)
    (owned : ∀ entry ∈ terms.toList,
      entry.2.participant.owner = handle.participant.owner) :
    ∃ keeper, admitted keeper ∧
      ((terms.get? handle.participant.index).map Term.participant).getD
        handle.participant = keeper.participant ∧
      keeper.participant.index = handle.participant.index ∧
      keeper.participant.owner = handle.participant.owner := by
  cases found : terms.get? handle.participant.index with
  | none => exact ⟨handle, allowed, rfl, rfl, rfl⟩
  | some term =>
      have membership := OrderedMap.get?_eq_some_iff.mp found
      obtain ⟨keeper, keeperAllowed, participant⟩ :=
        sound.handles _ membership
      refine ⟨keeper, keeperAllowed, participant, ?_, ?_⟩
      · rw [← participant]
        exact sound.filed _ membership
      · rw [← participant]
        exact owned _ membership

theorem Sound.insert (sound : Sound admitted terms) {keeper : Variable}
    {index : Index} {sum : α} (allowed : admitted keeper)
    (filed : keeper.participant.index = index)
    (owned : ∀ entry ∈ terms.toList,
      entry.2.participant.owner = keeper.participant.owner)
    (finite : Scalar.isFinite sum = true)
    (large : Scalar.nearZero sum = false) :
    Sound admitted (terms.insert index ⟨keeper.participant, sum⟩) := by
  have entries : ∀ entry ∈
      (terms.insert index ⟨keeper.participant, sum⟩).toList,
      entry = (index, ⟨keeper.participant, sum⟩) ∨ entry ∈ terms.toList := by
    intro entry membership
    rcases OrderedMap.mem_insert_iff.mp membership with new | ⟨_, old⟩
    · exact .inl new
    · exact .inr old
  have ownedBy : ∀ entry ∈
      (terms.insert index ⟨keeper.participant, sum⟩).toList,
      entry.2.participant.owner = keeper.participant.owner := by
    intro entry membership
    rcases entries entry membership with rfl | old
    · rfl
    · exact owned entry old
  constructor
  case filed =>
    intro entry membership
    rcases entries entry membership with rfl | old
    · exact filed
    · exact sound.filed entry old
  case handles =>
    intro entry membership
    rcases entries entry membership with rfl | old
    · exact ⟨keeper, allowed, rfl⟩
    · exact sound.handles entry old
  case owners =>
    intro entry membership other otherMembership
    rw [ownedBy entry membership, ownedBy other otherMembership]
  case finite =>
    intro entry membership
    rcases entries entry membership with rfl | old
    · exact finite
    · exact sound.finite entry old
  case large =>
    intro entry membership
    rcases entries entry membership with rfl | old
    · exact large
    · exact sound.large entry old

/-- Adding a multiple of an admitted handle keeps terms sound. -/
theorem Sound.add (sound : Sound admitted terms) {handle : Variable}
    {coefficient : α} (allowed : admitted handle)
    (success : terms.add handle.participant coefficient = .ok result) :
    Sound admitted result := by
  obtain ⟨accepted, sum, finite, written⟩ := add_ok_cases success
  rcases written with rfl | ⟨large, rfl⟩
  · exact sound.erase _
  · have owned := sound.owner_eq accepted
    obtain ⟨keeper, keeperAllowed, kept, filed, owner⟩ :=
      kept_participant sound allowed owned
    rw [kept]
    apply sound.insert keeperAllowed filed _ finite large
    intro entry membership
    rw [owned entry membership, owner]

/-- Adding a multiple of sound terms keeps terms sound. -/
theorem Sound.addScaled (sound : Sound admitted terms) {added : Terms α}
    {factor : α} (addedSound : Sound admitted added)
    (success : terms.addScaled added.values factor = .ok result) :
    Sound admitted result := by
  apply Check.foldlM_keeps _ sound success
  intro state term next membership stateSound stepped
  obtain ⟨entry, entryMember, rfl⟩ := List.mem_map.mp membership
  obtain ⟨handle, allowed, participant⟩ := addedSound.handles entry entryMember
  rw [participant] at stepped
  exact stateSound.add allowed stepped

/-- Adding multiples of admitted handles, one after another. -/
theorem sound_of_foldlM_add {start : Terms α} {multiples : List (Participant × α)}
    (sound : Sound admitted start)
    (allowed : ∀ multiple ∈ multiples,
      ∃ handle, admitted handle ∧ multiple.1 = handle.participant)
    (success : multiples.foldlM
      (fun sum multiple => Terms.add sum multiple.1 multiple.2) start =
        .ok result) :
    Sound admitted result := by
  apply Check.foldlM_keeps _ sound success
  intro state multiple next membership stateSound stepped
  obtain ⟨handle, handleAllowed, participant⟩ := allowed multiple membership
  rw [participant] at stepped
  exact stateSound.add handleAllowed stepped

end Terms

namespace Expression

variable {admitted : Variable → Prop} {expression other result : Expression α}

/-- An expression over admitted handles, as it is while it is changed. -/
structure Sound (admitted : Variable → Prop) (expression : Expression α) :
    Prop where
  terms : Terms.Sound admitted expression.terms
  constant : Scalar.isFinite expression.constant = true

theorem owner?_eq_of_mem (sound : Sound admitted expression) {term : Term α}
    (membership : term ∈ expression.termList) :
    expression.owner? = some term.participant.owner := by
  obtain ⟨entry, entryMember, rfl⟩ := List.mem_map.mp membership
  cases listed : expression.terms.toList with
  | nil =>
      rw [listed] at entryMember
      cases entryMember
  | cons oldest rest =>
      have oldestMember : oldest ∈ expression.terms.toList := by
        rw [listed]
        exact List.mem_cons_self
      have owners := sound.terms.owners entry entryMember oldest oldestMember
      obtain ⟨handle, _, participant⟩ := sound.terms.handles oldest oldestMember
      simp [owner?, Terms.owner?, OrderedMap.first?, OrderedMap.values, listed,
        owners, participant, Variable.participant]

/-- All terms belong to one model, if there are any. -/
theorem Sound.owner_cases (sound : expression.Sound admitted) :
    expression.isConstant = true ∧ expression.owner? = none ∨
      expression.isConstant = false ∧ ∃ handle, admitted handle ∧
        expression.owner? = some (.model handle.model) := by
  cases listed : expression.terms.toList with
  | nil =>
      have empty : expression.terms = OrderedMap.empty := OrderedMap.ext listed
      left
      constructor
      · rw [isConstant, empty]
        rfl
      · rw [owner?, empty]
        rfl
  | cons oldest rest =>
      have membership : oldest ∈ expression.terms.toList := by
        rw [listed]
        exact List.mem_cons_self
      obtain ⟨handle, admits, participant⟩ := sound.terms.handles oldest membership
      have owner := owner?_eq_of_mem sound (List.mem_map_of_mem membership)
      rw [participant] at owner
      right
      constructor
      · rw [isConstant, OrderedMap.size, listed]
        rfl
      · exact ⟨handle, admits, owner⟩

/-- Two expressions can be combined if one of them has no terms or if they have
one owner. -/
theorem requireOneModel_eq_ok_iff (sound : expression.Sound admitted)
    (otherSound : other.Sound admitted) :
    expression.requireOneModel other = .ok () ↔
      expression.isConstant = true ∨ other.isConstant = true ∨
        expression.owner? = other.owner? := by
  unfold requireOneModel
  rcases sound.owner_cases with ⟨constant, nobody⟩ | ⟨terms, handle, _, owner⟩
  · simp [nobody, constant]
  · rcases otherSound.owner_cases with
      ⟨constant, nobody⟩ | ⟨otherTerms, otherHandle, _, otherOwner⟩
    · simp [owner, nobody, constant]
    · by_cases same : handle.model = otherHandle.model
      · simp [owner, otherOwner, same]
      · simp [owner, otherOwner, same, terms, otherTerms]

/-- A sound expression is as every reader may expect it. -/
theorem Sound.wellFormed [LawfulScalar α] (sound : Sound admitted expression) :
    expression.WellFormed where
  indices := by
    have keys : expression.termList.map (fun term => term.participant.index) =
        expression.terms.toList.map Prod.fst := by
      unfold termList OrderedMap.values
      rw [List.map_map]
      exact List.map_congr_left sound.terms.filed
    rw [keys]
    exact expression.terms.distinct
  filed := sound.terms.filed
  owner := fun _ membership => owner?_eq_of_mem sound membership
  coefficients := by
    intro term membership
    obtain ⟨entry, entryMember, rfl⟩ := List.mem_map.mp membership
    have finite := sound.terms.finite entry entryMember
    have large := sound.terms.large entry entryMember
    exact ⟨finite, LawfulScalar.epsilon_lt_magnitude finite large⟩
  constant := sound.constant
  relation := by cases expression.relation <;> simp [Relation.mark]

end Expression

end LinearProgram
