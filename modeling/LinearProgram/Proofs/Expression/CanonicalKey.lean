import LinearProgram.Proofs.Expression.Key
import LinearProgram.Proofs.Index.Order

/-!
# Keys are canonical

The key of an expression tells its contents: relation, constant, and the coefficient at each
index, all numbers up to the sign of zero.  Conversely the contents determine the key, in whatever
order the terms were added, because sorting puts the same indices in the same order.

That last step takes variables under numbers.  An undefined index has no place among the other
indices, so where it stands in a key depends on when its term was added.
-/

namespace LinearProgram

/-- Doubles that compare as equal are written alike. -/
theorem Double.doubleText_eq_of_beq {value other : Float} (same : (value == other) = true) :
    doubleText value = doubleText other := by
  rcases parts_eq_of_beq same with ⟨_, _, zero, otherZero⟩ | equal
  · rw [doubleText_zero zero, doubleText_zero otherZero]
  · rw [eq_of_parts_eq equal]

namespace Expression

variable {admitted : Variable → Prop} {expression other : Expression Float}

/-- Two expressions that say the same, up to the order of their terms, the model to which these
belong, and the sign of zero. -/
structure SameContents (expression other : Expression Float) : Prop where
  relation : expression.relation = other.relation
  constant : (expression.constant == other.constant) = true
  indices : ∀ index, index ∈ expression.terms.keys ↔ index ∈ other.terms.keys
  coefficients : ∀ index ∈ expression.terms.keys,
    (expression.terms.coefficient index == other.terms.coefficient index) = true

section Reading

theorem coefficient_of_mem {terms : Terms Float} {entry : Index × Term Float}
    (membership : entry ∈ terms.toList) : terms.coefficient entry.1 = entry.2.coefficient := by
  rw [Terms.coefficient, OrderedMap.get?_eq_some_iff.mpr membership]
  rfl

/-- The terms of a key are those at the sorted indices. -/
theorem map_keyCell_sortedEntries (expression : Expression Float) :
    expression.sortedEntries.map keyCell =
      (Sorting.sort (Index.before Float) expression.terms.keys).map (fun index =>
        index.text Float ++ ":" ++ Scalar.text (expression.terms.coefficient index)) := by
  have agrees : Sorting.Agrees
      (fun first second : Index × Term Float => first.1.before Float second.1)
      (Index.before Float) Prod.fst := fun _ _ => rfl
  rw [OrderedMap.keys, Sorting.sort_map agrees, List.map_map]
  apply List.map_congr_left
  intro entry membership
  have present : entry ∈ expression.terms.toList := (Sorting.sort_perm _ _).mem_iff.mp membership
  simp only [keyCell, Function.comp_apply, coefficient_of_mem present]

end Reading

section Completeness

/-- A key tells the contents. -/
theorem sameContents_of_key_eq (legible : Legible admitted)
    (sound : Sound admitted expression) (otherSound : Sound admitted other)
    (same : expression.key = other.key) : SameContents expression other := by
  obtain ⟨relations, constants, cells⟩ := parts_of_key_eq legible sound otherSound same
  have counterparts : ∀ {expression other : Expression Float},
      Sound admitted expression → Sound admitted other →
      expression.sortedEntries.map keyCell = other.sortedEntries.map keyCell →
      ∀ index ∈ expression.terms.keys, index ∈ other.terms.keys ∧
        (expression.terms.coefficient index == other.terms.coefficient index) = true := by
    intro expression other sound otherSound cells index listed
    obtain ⟨entry, membership, rfl⟩ := List.mem_map.mp listed
    obtain ⟨counterpart, found, equal⟩ :=
      exists_equal_counterpart legible sound otherSound cells membership
    have otherMembership := OrderedMap.get?_eq_some_iff.mp found
    refine ⟨List.mem_map.mpr ⟨_, otherMembership, rfl⟩, ?_⟩
    rw [coefficient_of_mem membership, Terms.coefficient, found]
    exact equal
  exact {
    relation := relations
    constant := Double.beq_of_doubleText_eq sound.constant otherSound.constant constants
    indices := fun index =>
      ⟨fun listed => (counterparts sound otherSound cells index listed).1,
        fun listed => (counterparts otherSound sound cells.symm index listed).1⟩
    coefficients := fun index listed => (counterparts sound otherSound cells index listed).2 }

end Completeness

section Canonicity

/-- Terms are filed under numbers, if all handles are. -/
theorem numeric_keys (sound : Sound admitted expression)
    (numeric : ∀ handle, admitted handle → handle.index.Numeric) :
    ∀ index ∈ expression.terms.keys, index.Numeric := by
  intro index listed
  obtain ⟨entry, membership, rfl⟩ := List.mem_map.mp listed
  obtain ⟨handle, allowed, filed⟩ := index_admitted sound.terms membership
  exact filed ▸ numeric handle allowed

/-- The contents determine the key, if all indices are numbers. -/
theorem key_eq_of_sameContents (numeric : ∀ index ∈ expression.terms.keys, index.Numeric)
    (same : SameContents expression other) : expression.key = other.key := by
  have keys : expression.terms.keys.Perm other.terms.keys :=
    (List.perm_ext_iff_of_nodup expression.terms.distinct other.terms.distinct).mpr
      same.indices
  have cells : expression.sortedEntries.map keyCell = other.sortedEntries.map keyCell := by
    rw [map_keyCell_sortedEntries, map_keyCell_sortedEntries,
      ← Index.sort_eq_of_perm numeric keys]
    apply List.map_congr_left
    intro index listed
    have present : index ∈ expression.terms.keys := (Sorting.sort_perm _ _).mem_iff.mp listed
    have texts := Double.doubleText_eq_of_beq (same.coefficients index present)
    exact congrArg (fun text => index.text Float ++ ":" ++ text) texts
  have constants : Scalar.text expression.constant = Scalar.text other.constant :=
    Double.doubleText_eq_of_beq same.constant
  rw [key, key, same.relation, constants, cells]

end Canonicity

/-- However two expressions of variables under numbers came about, and in whatever order terms
were added: their keys are equal exactly if their contents are. -/
theorem key_eq_iff_sameContents (legible : Legible admitted)
    (numeric : ∀ handle, admitted handle → handle.index.Numeric)
    (reachable : Reachable admitted expression) (otherReachable : Reachable admitted other) :
    expression.key = other.key ↔ SameContents expression other := by
  constructor
  · exact sameContents_of_key_eq legible reachable.sound otherReachable.sound
  · exact key_eq_of_sameContents (numeric_keys reachable.sound numeric)

section Pairs

/-- A handle for one of two places of a table. -/
private def Chosen (handle : Variable) : Prop :=
  handle.index = .place 0 ∨ handle.index = .place 1

private theorem legible_chosen : Legible Chosen where
  unmarked := by
    intro handle chosen mark marks
    simp only [List.mem_cons, List.not_mem_nil, or_false] at marks
    rcases chosen with place | place <;> rcases marks with rfl | rfl <;>
      rw [place] <;> decide +kernel
  injective := by
    intro handle other chosen otherChosen same
    rcases chosen with place | place <;>
      rcases otherChosen with otherPlace | otherPlace <;>
        rw [place, otherPlace] at same ⊢ <;> exact absurd same (by decide +kernel)

private theorem numeric_chosen : ∀ handle, Chosen handle → handle.index.Numeric := by
  intro handle chosen
  rcases chosen with place | place <;> rw [place]
  · exact .ofRat 0
  · exact .ofRat 1

private def handleAt (index : Index) : Variable := { model := ⟨0, "m"⟩, index }

private def pair (first second : Index) (distinct : first ≠ second) (one two : Float) :
    Expression Float where
  terms := ⟨[(first, ⟨(handleAt first).participant, one⟩),
    (second, ⟨(handleAt second).participant, two⟩)], by simpa using distinct⟩
  constant := 0

private theorem reachable_pair {first second : Index} {distinct : first ≠ second}
    {one two : Float} (chosen : Chosen (handleAt first)) (also : Chosen (handleAt second))
    (built : build (fun _ => .ok 0)
      (.list ([handleAt first, handleAt second].map .handle) 0)
      (.list [.number one, .number two] 0) (.number 0) (.text "") =
        .ok (pair first second distinct one two)) :
    Reachable Chosen (pair first second distinct one two) := by
  refine .built ?_ built
  intro handle membership
  rcases List.mem_cons.mp membership with rfl | last
  · exact chosen
  · rw [List.mem_singleton.mp last]
    exact also

/-- Two variables that are added in either order make one key. -/
theorem sameContents_of_crossed : ∃ expression other : Expression Float,
    Reachable Chosen expression ∧ Reachable Chosen other ∧
      expression.terms.keys ≠ other.terms.keys ∧
      expression.key = other.key ∧ SameContents expression other := by
  have first : Reachable Chosen (pair (.place 0) (.place 1) (by decide) 1 2) :=
    reachable_pair (.inl rfl) (.inr rfl) rfl
  have second : Reachable Chosen (pair (.place 1) (.place 0) (by decide) 2 1) :=
    reachable_pair (.inr rfl) (.inl rfl) rfl
  have keys : (pair (.place 0) (.place 1) (by decide) 1 2).key =
      (pair (.place 1) (.place 0) (by decide) 2 1).key := by decide +kernel
  have law := key_eq_iff_sameContents legible_chosen numeric_chosen first second
  exact ⟨_, _, first, second, by decide, keys, law.mp keys⟩

/-- With a handle without a defined index, the order of terms shows in the key. -/
example : (pair .undefined (.place 0) (by decide) 1 1).key ≠
    (pair (.place 0) .undefined (by decide) 1 1).key := by
  decide +kernel

end Pairs

end Expression

end LinearProgram
