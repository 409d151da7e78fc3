import LinearProgram.Expression.Comparison
import LinearProgram.Proofs.Double.Text
import LinearProgram.Proofs.Expression.Reachable
import LinearProgram.Proofs.Text.Joined

/-!
# Keys of expressions

The key of an expression tells its relation, its constant, and the indices and
coefficients of its terms, but not the model to which the terms belong.  So two
expressions with one key are equal exactly if they have one owner.
-/

namespace LinearProgram

/-- The indices of handles are told apart by how they are written, and the marks
of a key do not occur in them. -/
structure Legible (admitted : Variable → Prop) : Prop where
  unmarked : ∀ handle, admitted handle → ∀ mark ∈ ['|', ':'],
    mark ∉ (handle.index.text Float).toList
  injective : ∀ handle other, admitted handle → admitted other →
    handle.index.text Float = other.index.text Float →
      handle.index = other.index

/-- The handle is of a place in a table. -/
def Variable.Placed (handle : Variable) : Prop :=
  ∃ position, handle.index = .place position

/-- The places in tables are written in digits. -/
theorem legible_placed : Legible Variable.Placed where
  unmarked := by
    intro handle placed mark marks membership
    obtain ⟨position, place⟩ := placed
    rw [place] at membership
    have digit := @Text.isDigit_of_mem_natural position _ membership
    simp only [List.mem_cons, List.not_mem_nil, or_false] at marks
    rcases marks with rfl | rfl <;> cases digit
  injective := by
    intro handle other placed otherPlaced same
    obtain ⟨position, place⟩ := placed
    obtain ⟨otherPosition, otherPlace⟩ := otherPlaced
    rw [place, otherPlace] at same ⊢
    rw [Text.natural_injective same]

namespace Double

theorem unmarked_doubleText {value : Float}
    (finite : Scalar.isFinite value = true) {mark : Char}
    (marks : mark ∈ ['|', ':']) : mark ∉ (doubleText value).toList := by
  intro membership
  have written := mem_doubleText finite membership
  simp only [List.mem_cons, List.not_mem_nil, or_false] at marks
  rcases marks with rfl | rfl <;> revert written <;> decide

end Double

namespace Expression

variable {admitted : Variable → Prop} {expression other : Expression Float}

section Cells

variable {terms otherTerms : Terms Float} {entry otherEntry : Index × Term Float}

theorem index_admitted (sound : terms.Sound admitted)
    (membership : entry ∈ terms.toList) :
    ∃ handle, admitted handle ∧ handle.index = entry.1 := by
  obtain ⟨handle, allowed, participant⟩ := sound.handles entry membership
  refine ⟨handle, allowed, ?_⟩
  rw [← sound.filed entry membership, participant]
  rfl

private theorem unmarked_index (legible : Legible admitted)
    (sound : terms.Sound admitted) (membership : entry ∈ terms.toList)
    {mark : Char} (marks : mark ∈ ['|', ':']) :
    mark ∉ (entry.1.text Float).toList := by
  obtain ⟨handle, allowed, index⟩ := index_admitted sound membership
  rw [← index]
  exact legible.unmarked handle allowed mark marks

private theorem unmarked_coefficient (sound : terms.Sound admitted)
    (membership : entry ∈ terms.toList) {mark : Char}
    (marks : mark ∈ ['|', ':']) :
    mark ∉ (Scalar.text entry.2.coefficient).toList :=
  Double.unmarked_doubleText (sound.finite entry membership) marks

theorem unmarked_keyCell (legible : Legible admitted)
    (sound : terms.Sound admitted) (membership : entry ∈ terms.toList) :
    '|' ∉ (keyCell entry).toList := by
  have bar : '|' ∈ ['|', ':'] := by decide
  simp [keyCell, unmarked_index legible sound membership bar,
    unmarked_coefficient sound membership bar]

/-- The part of a key that stands for a term tells the index and how the
coefficient is written. -/
theorem keyCell_injective (legible : Legible admitted)
    (sound : terms.Sound admitted) (otherSound : otherTerms.Sound admitted)
    (membership : entry ∈ terms.toList)
    (otherMembership : otherEntry ∈ otherTerms.toList)
    (same : keyCell entry = keyCell otherEntry) :
    entry.1 = otherEntry.1 ∧
      Scalar.text entry.2.coefficient =
        Scalar.text otherEntry.2.coefficient := by
  have colon : ':' ∈ ['|', ':'] := by decide
  have parts : [entry.1.text Float, Scalar.text entry.2.coefficient] =
      [otherEntry.1.text Float, Scalar.text otherEntry.2.coefficient] := by
    apply @Text.joined_injective ':' _ _ (List.cons_ne_nil _ _)
      (List.cons_ne_nil _ _)
    · simp [unmarked_index legible sound membership colon,
        unmarked_coefficient sound membership colon]
    · simp [unmarked_index legible otherSound otherMembership colon,
        unmarked_coefficient otherSound otherMembership colon]
    · exact same
  simp only [List.cons.injEq, and_true] at parts
  obtain ⟨handle, allowed, index⟩ := index_admitted sound membership
  obtain ⟨otherHandle, otherAllowed, otherIndex⟩ :=
    index_admitted otherSound otherMembership
  rw [← index, ← otherIndex] at parts ⊢
  exact ⟨legible.injective handle otherHandle allowed otherAllowed parts.1,
    parts.2⟩

end Cells

section Keys

private theorem mem_sortedEntries {entry : Index × Term Float} :
    entry ∈ expression.sortedEntries ↔ entry ∈ expression.terms.toList :=
  (Sorting.sort_perm _ _).mem_iff

private theorem unmarked_parts (legible : Legible admitted)
    (sound : Sound admitted expression) :
    ∀ part ∈ expression.relation.mark :: Scalar.text expression.constant ::
      expression.sortedEntries.map keyCell, '|' ∉ part.toList := by
  intro part membership
  rcases List.mem_cons.mp membership with rfl | later
  · cases expression.relation <;> decide
  · rcases List.mem_cons.mp later with rfl | cells
    · exact Double.unmarked_doubleText sound.constant (by decide)
    · obtain ⟨entry, present, rfl⟩ := List.mem_map.mp cells
      exact unmarked_keyCell legible sound.terms (mem_sortedEntries.mp present)

/-- A key can be taken apart. -/
theorem parts_of_key_eq (legible : Legible admitted)
    (sound : Sound admitted expression) (otherSound : Sound admitted other)
    (same : expression.key = other.key) :
    expression.relation = other.relation ∧
      Scalar.text expression.constant = Scalar.text other.constant ∧
      expression.sortedEntries.map keyCell = other.sortedEntries.map keyCell := by
  have parts := Text.joined_injective (List.cons_ne_nil _ _)
    (List.cons_ne_nil _ _) (unmarked_parts legible sound)
    (unmarked_parts legible otherSound) same
  simp only [List.cons.injEq] at parts
  obtain ⟨marks, constants, cells⟩ := parts
  have relations := congrArg Relation.ofMark? marks
  simp only [Relation.ofMark?_mark, Option.some.injEq] at relations
  exact ⟨relations, constants, cells⟩

private theorem size_of_cells
    (cells : expression.sortedEntries.map keyCell =
      other.sortedEntries.map keyCell) : expression.size = other.size := by
  have lengths := congrArg List.length cells
  simp only [List.length_map, sortedEntries, (Sorting.sort_perm _ _).length_eq]
    at lengths
  exact lengths

/-- Each term has a counterpart whose coefficient compares as equal. -/
theorem exists_equal_counterpart (legible : Legible admitted)
    (sound : Sound admitted expression) (otherSound : Sound admitted other)
    (cells : expression.sortedEntries.map keyCell =
      other.sortedEntries.map keyCell) {entry : Index × Term Float}
    (membership : entry ∈ expression.terms.toList) :
    ∃ counterpart, other.terms.get? entry.1 = some counterpart ∧
      (entry.2.coefficient == counterpart.coefficient) = true := by
  have present : keyCell entry ∈ other.sortedEntries.map keyCell := by
    rw [← cells]
    exact List.mem_map_of_mem (mem_sortedEntries.mpr membership)
  obtain ⟨otherEntry, otherPresent, same⟩ := List.mem_map.mp present
  have otherMembership := mem_sortedEntries.mp otherPresent
  obtain ⟨indices, coefficients⟩ := keyCell_injective legible sound.terms
    otherSound.terms membership otherMembership same.symm
  have finite := sound.terms.finite entry membership
  have otherFinite := otherSound.terms.finite otherEntry otherMembership
  refine ⟨otherEntry.2, ?_, Double.beq_of_doubleText_eq finite otherFinite coefficients⟩
  rw [indices]
  exact OrderedMap.get?_eq_some_iff.mpr otherMembership

private theorem exists_counterpart (legible : Legible admitted)
    (sound : Sound admitted expression) (otherSound : Sound admitted other)
    (cells : expression.sortedEntries.map keyCell =
      other.sortedEntries.map keyCell) {entry : Index × Term Float}
    (membership : entry ∈ expression.terms.toList) :
    ∃ counterpart, other.terms.get? entry.1 = some counterpart ∧
      close entry.2.coefficient counterpart.coefficient = true := by
  obtain ⟨counterpart, found, equal⟩ :=
    exists_equal_counterpart legible sound otherSound cells membership
  exact ⟨counterpart, found,
    LawfulScalar.close_of_beq (sound.terms.finite entry membership) equal⟩

end Keys

section Owners

private theorem mem_termList {entry : Index × Term Float}
    (membership : entry ∈ expression.terms.toList) :
    entry.2 ∈ expression.termList :=
  List.mem_map_of_mem membership

private theorem agrees_iff (sound : Sound admitted expression)
    (otherSound : Sound admitted other) {entry : Index × Term Float}
    (membership : entry ∈ expression.terms.toList) {counterpart : Term Float}
    (found : other.terms.get? entry.1 = some counterpart)
    (near : close entry.2.coefficient counterpart.coefficient = true) :
    agrees entry.2 counterpart = true ↔ expression.owner? = other.owner? := by
  have otherMembership := OrderedMap.get?_eq_some_iff.mp found
  obtain ⟨handle, _, participant⟩ := sound.terms.handles entry membership
  obtain ⟨otherHandle, _, otherParticipant⟩ : ∃ handle, admitted handle ∧
      counterpart.participant = handle.participant :=
    otherSound.terms.handles _ otherMembership
  rw [owner?_eq_of_mem sound (mem_termList membership),
    owner?_eq_of_mem otherSound (mem_termList otherMembership)]
  simp only [agrees, near, Bool.and_true, participant, otherParticipant]
  simp [Variable.participant]

private theorem equals_iff_agrees
    (relations : expression.relation = other.relation)
    (sizes : expression.size = other.size)
    (near : close expression.constant other.constant = true)
    (counterparts : ∀ entry ∈ expression.terms.toList,
      ∃ counterpart, other.terms.get? entry.1 = some counterpart ∧
        close entry.2.coefficient counterpart.coefficient = true) :
    expression.equals other = true ↔
      ∀ entry ∈ expression.terms.toList, ∀ counterpart,
        other.terms.get? entry.1 = some counterpart →
          agrees entry.2 counterpart = true := by
  simp only [equals, relations, sizes, near, decide_true, Bool.true_and,
    List.all_eq_true]
  constructor
  · intro agreed entry membership counterpart found
    have matched := agreed entry membership
    rw [found] at matched
    exact matched
  · intro agreed entry membership
    obtain ⟨counterpart, found, _⟩ := counterparts entry membership
    rw [found]
    exact agreed entry membership counterpart found

private theorem owner?_eq_none_of_size (empty : expression.size = 0) :
    expression.owner? = none := by
  have entries : expression.terms.toList = [] := List.length_eq_zero_iff.mp empty
  simp [owner?, Terms.owner?, OrderedMap.first?, OrderedMap.values, entries]

/-- Expressions with one key are equal exactly if they have one owner. -/
theorem equals_iff_of_key_eq (legible : Legible admitted)
    (reachable : Reachable admitted expression)
    (otherReachable : Reachable admitted other)
    (same : expression.key = other.key) :
    expression.equals other = true ↔ expression.owner? = other.owner? := by
  have sound := reachable.sound
  have otherSound := otherReachable.sound
  obtain ⟨relations, constants, cells⟩ :=
    parts_of_key_eq legible sound otherSound same
  have sizes := size_of_cells cells
  have near : close expression.constant other.constant = true :=
    LawfulScalar.close_of_beq sound.constant
      (Double.beq_of_doubleText_eq sound.constant otherSound.constant constants)
  have counterparts : ∀ entry ∈ expression.terms.toList,
      ∃ counterpart, other.terms.get? entry.1 = some counterpart ∧
        close entry.2.coefficient counterpart.coefficient = true :=
    fun _ => exists_counterpart legible sound otherSound cells
  rw [equals_iff_agrees relations sizes near counterparts]
  constructor
  · intro agreed
    cases listed : expression.terms.toList with
    | nil =>
        have empty : expression.size = 0 := congrArg List.length listed
        rw [owner?_eq_none_of_size empty,
          owner?_eq_none_of_size (sizes ▸ empty)]
    | cons entry rest =>
        have membership : entry ∈ expression.terms.toList := by
          rw [listed]
          exact List.mem_cons_self
        obtain ⟨counterpart, found, close⟩ := counterparts entry membership
        exact (agrees_iff sound otherSound membership found close).mp
          (agreed entry membership counterpart found)
  · intro owners entry membership counterpart found
    obtain ⟨expected, sought, close⟩ := counterparts entry membership
    rw [found] at sought
    cases sought
    exact (agrees_iff sound otherSound membership found close).mpr owners

end Owners

section Homonyms

/-- The first variable of a model, once, with a constant. -/
private def homonym (reference : ModelRef) (constant : Float) :
    Expression Float where
  terms := ⟨[(.place 0, ⟨(reference.variable (.place 0)).participant, 1⟩)],
    by simp⟩
  constant := constant

private theorem reachable_homonym {reference : ModelRef} {constant : Float}
    (built : build (fun _ => .ok 0)
      (.list ([reference.variable (.place 0)].map .handle) 0)
      (.list [.number 1] 0) (.number constant) (.text "") =
        .ok (homonym reference constant)) :
    Reachable Variable.Placed (homonym reference constant) := by
  refine .built ?_ built
  intro handle membership
  rw [List.mem_singleton.mp membership]
  exact ⟨0, rfl⟩

/-- Both zeros are written alike, and both are the constant of equal
expressions. -/
theorem equals_of_zeros :
    (homonym ⟨0, "a"⟩ 0).equals (homonym ⟨0, "a"⟩ (-0)) = true := by
  have same : (homonym ⟨0, "a"⟩ 0).key = (homonym ⟨0, "a"⟩ (-0)).key := by
    decide
  exact (equals_iff_of_key_eq legible_placed (reachable_homonym rfl)
    (reachable_homonym rfl) same).mpr rfl

/-- Expressions of different models can have one key. -/
theorem key_eq_of_different_owners : ∃ expression other : Expression Float,
    Reachable Variable.Placed expression ∧ Reachable Variable.Placed other ∧
      expression.key = other.key ∧ expression.equals other = false :=
  ⟨homonym ⟨0, "a"⟩ 0, homonym ⟨1, "b"⟩ 0, reachable_homonym rfl,
    reachable_homonym rfl, rfl, rfl⟩

end Homonyms

end Expression

end LinearProgram
