import LinearProgram.Model.Storage
import LinearProgram.Proofs.OrderedMap
import LinearProgram.Proofs.Text.Joined
import Mathlib.Data.List.Nodup
import Mathlib.Data.List.Perm.Subperm
import Mathlib.Data.Nat.Find

/-!
# Free names

A name that is taken is continued by the least number that makes it free.  There
always is one: the continuations differ from each other and from the name
itself, so they can not all be taken.  Therefore a list of names and the registry
in which they are looked up stay inverse to each other while names are appended
and replaced.
-/

namespace LinearProgram

namespace NameRegistry

variable {names : NameRegistry} {base : String}

theorem numbered_injective (base : String) :
    Function.Injective (numbered base) := by
  intro number other same
  have characters := congrArg String.toList same
  simp only [numbered, String.toList_append] at characters
  have digits := List.append_cancel_left characters
  exact Text.natural_injective (String.toList_injective digits)

theorem numbered_ne (base : String) (number : Nat) :
    numbered base number ≠ base := by
  intro same
  have lengths := congrArg (fun text => text.toList.length) same
  simp only [numbered, String.toList_append, List.length_append] at lengths
  have mark : "_".toList.length = 1 := rfl
  omega

/-- The search ends at the first free number, if it is within reach. -/
theorem continueFrom_eq {attempts number least : Nat} (start : number ≤ least)
    (reach : least ≤ number + attempts)
    (taken : ∀ other, number ≤ other → other < least →
      names.contains (numbered base other) = true)
    (free : names.contains (numbered base least) = false) :
    names.continueFrom base attempts number = numbered base least := by
  induction attempts generalizing number with
  | zero =>
      have same : number = least := by omega
      rw [continueFrom, same]
  | succ attempts induction =>
      rw [continueFrom]
      by_cases here : number = least
      · rw [here, free]
        rfl
      · rw [if_pos (taken number (Nat.le_refl _) (by omega))]
        apply induction (by omega) (by omega)
        intro other later earlier
        exact taken other (by omega) earlier

/-- A name and its continuations are all different. -/
theorem nodup_candidates (base : String) (count : Nat) :
    (base :: (List.range' 1 count).map (numbered base)).Nodup := by
  refine List.nodup_cons.mpr ⟨?_, ?_⟩
  · intro listed
    obtain ⟨number, _, same⟩ := List.mem_map.mp listed
    exact numbered_ne base number same
  · exact List.Nodup.map (numbered_injective base) List.nodup_range'

/-- There are no more taken candidates than names. -/
theorem length_le_size {candidates : List String} (distinct : candidates.Nodup)
    (taken : ∀ candidate ∈ candidates, names.contains candidate = true) :
    candidates.length ≤ names.size := by
  have listed : candidates ⊆ names.keys := by
    intro candidate membership
    exact OrderedMap.contains_iff.mp (taken candidate membership)
  have keys : names.keys.length = names.size := List.length_map _
  rw [← keys]
  exact (List.Nodup.subperm distinct listed).length_le

/-- Among as many continuations of a taken name as there are names, one is
free. -/
theorem exists_free (taken : names.contains base = true) :
    ∃ number, 1 ≤ number ∧ number ≤ names.size ∧
      names.contains (numbered base number) = false := by
  by_contra! allTaken
  have listed : ∀ candidate ∈
      base :: (List.range' 1 names.size).map (numbered base),
      names.contains candidate = true := by
    intro candidate membership
    rcases List.mem_cons.mp membership with rfl | continued
    · exact taken
    · obtain ⟨number, range, rfl⟩ := List.mem_map.mp continued
      obtain ⟨lower, upper⟩ := List.mem_range'_1.mp range
      simpa using allTaken number lower (by omega)
  have count := length_le_size (nodup_candidates base names.size) listed
  simp only [List.length_cons, List.length_map, List.length_range'] at count
  omega

/-- A unique name is the name that was asked for, if that is free, and otherwise
its first free continuation. -/
theorem unique_cases (names : NameRegistry) (name fallback : String) :
    let base := if name = "" then fallback else name
    (names.contains base = false ∧ names.unique name fallback = base) ∨
      ∃ number, 1 ≤ number ∧ number ≤ names.size ∧
        names.unique name fallback = numbered base number ∧
        names.contains base = true ∧
        names.contains (numbered base number) = false ∧
        ∀ other, 1 ≤ other → other < number →
          names.contains (numbered base other) = true := by
  intro base
  cases present : names.contains base with
  | false =>
      left
      refine ⟨rfl, ?_⟩
      exact if_neg (by simpa using present)
  | true =>
      right
      have some := exists_free present
      have found := Nat.find_spec some
      have earlier : ∀ other, 1 ≤ other → other < Nat.find some →
          names.contains (numbered base other) = true := by
        intro other positive before
        by_contra free
        have within : other ≤ names.size := by
          have bound := found.2.1
          omega
        exact Nat.find_min some before ⟨positive, within, by simpa using free⟩
      refine ⟨Nat.find some, found.1, found.2.1, ?_, rfl, found.2.2, earlier⟩
      have searched := continueFrom_eq found.1
        (Nat.le_trans found.2.1 (Nat.le_add_left _ _)) earlier found.2.2
      rw [← searched]
      exact if_pos present

theorem contains_unique (names : NameRegistry) (name fallback : String) :
    names.contains (names.unique name fallback) = false := by
  rcases names.unique_cases name fallback with
    ⟨free, same⟩ | ⟨_, _, _, same, _, free, _⟩
  · rw [same]
    exact free
  · rw [same]
    exact free

theorem unique_ne_empty (names : NameRegistry) (name : String)
    {fallback : String} (given : fallback ≠ "") :
    names.unique name fallback ≠ "" := by
  have base_ne : (if name = "" then fallback else name) ≠ "" := by
    split
    · exact given
    · assumption
  rcases names.unique_cases name fallback with
    ⟨_, same⟩ | ⟨_, _, _, same, _⟩
  · rw [same]
    exact base_ne
  · rw [same]
    intro empty
    simp [numbered] at empty

end NameRegistry

/-- The names of the entries of a table, in order, and the registry in which they
are looked up. -/
structure NameTable where
  registry : NameRegistry
  names : List String

namespace NameTable

/-- Name one more entry. -/
def append (table : NameTable) (name : String) : NameTable :=
  ⟨table.registry.insert name table.names.length, table.names ++ [name]⟩

/-- Forget the name of an entry and give it another one. -/
def replace (table : NameTable) (position : Nat) (old name : String) :
    NameTable :=
  ⟨OrderedMap.insert (table.registry.erase old) name position,
    table.names.set position name⟩

/-- The registry finds every name at its place, and nothing else. -/
structure Consistent (table : NameTable) : Prop where
  nonempty : ∀ name ∈ table.names, name ≠ ""
  found_iff : ∀ name position, table.registry.get? name = some position ↔
    table.names[position]? = some name

variable {table : NameTable} {name : String}

theorem consistent_empty : Consistent ⟨OrderedMap.empty, []⟩ where
  nonempty := nofun
  found_iff := by simp [OrderedMap.get?, OrderedMap.empty, OrderedMap.find]

/-- A name is at no place if it is free. -/
theorem Consistent.absent (consistent : table.Consistent)
    (free : table.registry.contains name = false) (position : Nat) :
    table.names[position]? ≠ some name := by
  intro held
  rw [← consistent.found_iff] at held
  simp [OrderedMap.contains, held] at free

/-- A name is at one place only. -/
theorem Consistent.place_unique (consistent : table.Consistent)
    {position other : Nat} (held : table.names[position]? = some name)
    (otherHeld : table.names[other]? = some name) : position = other := by
  rw [← consistent.found_iff] at held otherHeld
  rw [held] at otherHeld
  exact Option.some.inj otherHeld

/-- A free name can be appended. -/
theorem Consistent.append (consistent : table.Consistent)
    (free : table.registry.contains name = false) (nonempty : name ≠ "") :
    (table.append name).Consistent where
  nonempty := by
    intro listed membership
    rcases List.mem_append.mp membership with old | new
    · exact consistent.nonempty listed old
    · rw [List.mem_singleton.mp new]
      exact nonempty
  found_iff := by
    intro sought position
    have unused := consistent.absent free
    have found := consistent.found_iff sought position
    simp only [NameTable.append, OrderedMap.get?_insert, List.getElem?_append]
    grind

/-- An entry can take a name that no other entry has. -/
theorem Consistent.replace (consistent : table.Consistent) {position : Nat}
    {old : String} (present : table.names[position]? = some old)
    (free : OrderedMap.contains (table.registry.erase old) name = false)
    (nonempty : name ≠ "") : (table.replace position old name).Consistent where
  nonempty := by
    intro listed membership
    rcases List.mem_or_eq_of_mem_set membership with kept | rfl
    · exact consistent.nonempty listed kept
    · exact nonempty
  found_iff := by
    intro sought place
    have unused : ∀ other : Nat, table.names[other]? = some name →
        other = position := by
      intro other held
      by_cases same : name = old
      · subst same
        exact consistent.place_unique held present
      · rw [← consistent.found_iff] at held
        rw [OrderedMap.contains, OrderedMap.get?_erase, if_neg same, held]
          at free
        cases free
    have alone : ∀ other : Nat, table.names[other]? = some old →
        other = position :=
      fun _ held => consistent.place_unique held present
    have found := consistent.found_iff sought place
    simp only [NameTable.replace, OrderedMap.get?_insert, OrderedMap.get?_erase,
      List.getElem?_set]
    grind

end NameTable

/-- So many positions have names that differ, none of them empty, and a search
that inverts the naming. -/
structure Directory (count : Nat) (nameAt : Nat → String)
    (find : String → Option Nat) : Prop where
  nonempty : ∀ position < count, nameAt position ≠ ""
  distinct : ∀ first < count, ∀ second < count,
    nameAt first = nameAt second → first = second
  found_iff : ∀ name position,
    find name = some position ↔ position < count ∧ nameAt position = name
  missing_iff : ∀ name,
    find name = none ↔ ∀ position < count, nameAt position ≠ name

/-- Names that are found where they are make a directory. -/
theorem NameTable.Consistent.directory {table : NameTable}
    (consistent : table.Consistent) {nameAt : Nat → String}
    (read : ∀ position : Nat, nameAt position =
      (table.names[position]?).getD "") :
    Directory table.names.length nameAt table.registry.get? := by
  have held : ∀ position name, table.names[position]? = some name ↔
      position < table.names.length ∧ nameAt position = name := by
    intro position name
    rw [read]
    grind
  have found : ∀ name position, table.registry.get? name = some position ↔
      position < table.names.length ∧ nameAt position = name := by
    intro name position
    rw [consistent.found_iff, held]
  constructor
  case nonempty =>
    intro position inside
    have listed := (held position _).mpr ⟨inside, rfl⟩
    exact consistent.nonempty _ (List.mem_of_getElem? listed)
  case distinct =>
    intro first inside second otherInside same
    exact consistent.place_unique ((held first _).mpr ⟨inside, same⟩)
      ((held second _).mpr ⟨otherInside, rfl⟩)
  case found_iff => exact found
  case missing_iff =>
    intro name
    simp only [Option.eq_none_iff_forall_ne_some, Ne, found, not_and]

end LinearProgram
