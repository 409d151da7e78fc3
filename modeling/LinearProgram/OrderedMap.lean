/-!
# Maps in insertion order

A finite map that remembers in which order its keys arrived.  Changing the value of a key keeps its
place; a key that was erased and comes back goes to the end.  Terms of an expression, cells of a row
and registered names are all kept in such maps, because their order shows in every listing.

The entries are a list with distinct keys.  Lookup, update and removal are described by what they do
to the lookup function and to the list of keys, so that later modules never unfold them.
-/

namespace LinearProgram

universe u v

/-- A finite map with its entries in the order of first insertion. -/
structure OrderedMap (κ : Type u) (β : Type v) where
  /-- The entries, oldest first. -/
  toList : List (κ × β)
  /-- No key occurs twice. -/
  distinct : (toList.map Prod.fst).Nodup

namespace OrderedMap

variable {κ : Type u} {β : Type v}

/-- Two maps with the same entries in the same order are equal. -/
theorem ext {first second : OrderedMap κ β} (entries : first.toList = second.toList) :
    first = second := by
  cases first
  cases second
  cases entries
  rfl

instance [DecidableEq κ] [DecidableEq β] : DecidableEq (OrderedMap κ β) :=
  fun first second =>
    if entries : first.toList = second.toList then isTrue (ext entries)
    else isFalse (fun equality => entries (congrArg toList equality))

instance [Repr κ] [Repr β] : Repr (OrderedMap κ β) where
  reprPrec map precedence := reprPrec map.toList precedence

def empty : OrderedMap κ β := ⟨[], List.nodup_nil⟩

instance : Inhabited (OrderedMap κ β) := ⟨empty⟩

/-- The keys, oldest first. -/
def keys (map : OrderedMap κ β) : List κ := map.toList.map Prod.fst

/-- The values, in the order of their keys. -/
def values (map : OrderedMap κ β) : List β := map.toList.map Prod.snd

def size (map : OrderedMap κ β) : Nat := map.toList.length

/-- Change all values, in place. -/
def map {γ : Type v} (change : β → γ) (map : OrderedMap κ β) : OrderedMap κ γ :=
  ⟨map.toList.map (fun entry => (entry.1, change entry.2)), by
    rw [List.map_map]
    exact map.distinct⟩

/-- The value of the oldest key. -/
def first? (map : OrderedMap κ β) : Option β := map.values.head?

variable [DecidableEq κ]

/-- The value that a list of entries gives to a key. -/
def find (key : κ) : List (κ × β) → Option β
  | [] => none
  | (label, value) :: rest => if label = key then some value else find key rest

/-- Give a key a value: in place if the key is present, at the end if not. -/
def assign (key : κ) (value : β) : List (κ × β) → List (κ × β)
  | [] => [(key, value)]
  | (label, old) :: rest =>
    if label = key then (label, value) :: rest else (label, old) :: assign key value rest

def discard (key : κ) (entries : List (κ × β)) : List (κ × β) :=
  entries.filter (fun entry => entry.1 ≠ key)

theorem keys_assign_of_mem {key : κ} {value : β} {entries : List (κ × β)}
    (present : key ∈ entries.map Prod.fst) :
    (assign key value entries).map Prod.fst = entries.map Prod.fst := by
  induction entries with
  | nil => simp at present
  | cons entry rest induction =>
    obtain ⟨label, old⟩ := entry
    by_cases same : label = key
    · simp [assign, same]
    · have later : key ∈ rest.map Prod.fst := by
        rcases List.mem_cons.1 present with equal | later
        · exact absurd equal.symm same
        · exact later
      simp only [assign, if_neg same, List.map_cons, induction later]

theorem assign_of_not_mem {key : κ} {value : β} {entries : List (κ × β)}
    (absent : key ∉ entries.map Prod.fst) :
    assign key value entries = entries ++ [(key, value)] := by
  induction entries with
  | nil => rfl
  | cons entry rest induction =>
    obtain ⟨label, old⟩ := entry
    simp only [List.map_cons, List.mem_cons, not_or] at absent
    have different : label ≠ key := fun equal => absent.1 equal.symm
    simp only [assign, if_neg different, induction absent.2, List.cons_append]

theorem nodup_assign {key : κ} {value : β} {entries : List (κ × β)}
    (nodup : (entries.map Prod.fst).Nodup) :
    ((assign key value entries).map Prod.fst).Nodup := by
  by_cases present : key ∈ entries.map Prod.fst
  · rw [keys_assign_of_mem present]
    exact nodup
  · rw [assign_of_not_mem present, List.map_append, List.nodup_append]
    refine ⟨nodup, by simp, ?_⟩
    intro left leftMember right rightMember equal
    simp only [List.map_cons, List.map_nil, List.mem_singleton] at rightMember
    subst equal
    subst rightMember
    exact present leftMember

theorem nodup_discard {key : κ} {entries : List (κ × β)}
    (nodup : (entries.map Prod.fst).Nodup) :
    ((discard key entries).map Prod.fst).Nodup :=
  nodup.sublist (List.filter_sublist.map Prod.fst)

/-- The value of a key, if it has one. -/
def get? (map : OrderedMap κ β) (key : κ) : Option β := find key map.toList

def contains (map : OrderedMap κ β) (key : κ) : Bool := (map.get? key).isSome

def insert (map : OrderedMap κ β) (key : κ) (value : β) : OrderedMap κ β :=
  ⟨assign key value map.toList, nodup_assign map.distinct⟩

def erase (map : OrderedMap κ β) (key : κ) : OrderedMap κ β :=
  ⟨discard key map.toList, nodup_discard map.distinct⟩

theorem find_eq_none_iff {key : κ} {entries : List (κ × β)} :
    find key entries = none ↔ key ∉ entries.map Prod.fst := by
  induction entries with
  | nil => simp [find]
  | cons entry rest induction =>
    obtain ⟨label, value⟩ := entry
    by_cases same : label = key
    · simp [find, same]
    · have different : key ≠ label := fun equal => same equal.symm
      simp [find, same, different, induction]

/-- A key is found exactly when it is listed. -/
theorem get?_eq_none_iff {map : OrderedMap κ β} {key : κ} :
    map.get? key = none ↔ key ∉ map.keys :=
  find_eq_none_iff

theorem find_assign (key other : κ) (value : β) (entries : List (κ × β)) :
    find other (assign key value entries)
      = if other = key then some value else find other entries := by
  induction entries with
  | nil =>
    by_cases same : other = key
    · simp [assign, find, same]
    · have different : key ≠ other := fun equal => same equal.symm
      simp [assign, find, same, different]
  | cons entry rest induction =>
    obtain ⟨label, old⟩ := entry
    by_cases reached : label = key
    · subst reached
      by_cases same : other = label
      · simp [assign, find, same]
      · have different : label ≠ other := fun equal => same equal.symm
        simp [assign, find, same, different]
    · by_cases here : label = other
      · subst here
        simp [assign, find, reached]
      · simp [assign, find, reached, here, induction]

/-- Reading after writing. -/
theorem get?_insert (map : OrderedMap κ β) (key other : κ) (value : β) :
    (map.insert key value).get? other = if other = key then some value else map.get? other :=
  find_assign key other value map.toList

theorem find_discard (key other : κ) (entries : List (κ × β)) :
    find other (discard key entries) = if other = key then none else find other entries := by
  induction entries with
  | nil => simp [discard, find]
  | cons entry rest induction =>
    obtain ⟨label, value⟩ := entry
    by_cases dropped : label = key
    · subst dropped
      have skipped : discard label ((label, value) :: rest) = discard label rest := by
        simp [discard]
      rw [skipped, induction]
      by_cases same : other = label
      · simp [same]
      · have different : label ≠ other := fun equal => same equal.symm
        simp [find, same, different]
    · have kept : discard key ((label, value) :: rest) = (label, value) :: discard key rest := by
        simp [discard, dropped]
      rw [kept]
      by_cases here : label = other
      · subst here
        simp [find, dropped]
      · simp [find, here, induction]

/-- Reading after forgetting. -/
theorem get?_erase (map : OrderedMap κ β) (key other : κ) :
    (map.erase key).get? other = if other = key then none else map.get? other :=
  find_discard key other map.toList

/-- Writing a present key moves nothing. -/
theorem keys_insert_of_mem {map : OrderedMap κ β} {key : κ} {value : β}
    (present : key ∈ map.keys) : (map.insert key value).keys = map.keys :=
  keys_assign_of_mem present

/-- A new key goes to the end. -/
theorem toList_insert_of_not_mem {map : OrderedMap κ β} {key : κ} {value : β}
    (absent : key ∉ map.keys) :
    (map.insert key value).toList = map.toList ++ [(key, value)] :=
  assign_of_not_mem absent

end OrderedMap

end LinearProgram
