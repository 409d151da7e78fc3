import LinearProgram.OrderedMap

/-!
# Entries of ordered maps

Reading a key and listing the entries agree, because keys are distinct.  So
what writing and forgetting do to the entries follows from what they do to
reading.
-/

namespace LinearProgram.OrderedMap

universe u v

variable {κ : Type u} {β : Type v} [DecidableEq κ]

private theorem find_eq_some_iff {key : κ} {value : β} {entries : List (κ × β)}
    (distinct : (entries.map Prod.fst).Nodup) :
    find key entries = some value ↔ (key, value) ∈ entries := by
  induction entries with
  | nil => simp [find]
  | cons entry rest induction =>
      obtain ⟨label, held⟩ := entry
      rw [List.map_cons, List.nodup_cons] at distinct
      by_cases same : label = key
      · subst same
        have absent : (label, value) ∉ rest := by
          intro membership
          exact distinct.1 (List.mem_map.mpr ⟨_, membership, rfl⟩)
        simp [find, absent, eq_comm]
      · have apart : (key, value) ≠ (label, held) := by
          intro equality
          exact same (congrArg Prod.fst equality).symm
        simp [find, same, induction distinct.2, apart]

/-- Reading a key gives the value with which it is listed. -/
theorem get?_eq_some_iff {map : OrderedMap κ β} {key : κ} {value : β} :
    map.get? key = some value ↔ (key, value) ∈ map.toList :=
  find_eq_some_iff map.distinct

theorem contains_iff {map : OrderedMap κ β} {key : κ} :
    map.contains key = true ↔ key ∈ map.keys := by
  rw [contains, Option.isSome_iff_ne_none, Ne, get?_eq_none_iff,
    Decidable.not_not]

theorem contains_eq_false_iff {map : OrderedMap κ β} {key : κ} :
    map.contains key = false ↔ key ∉ map.keys := by
  rw [← contains_iff, Bool.not_eq_true]

/-- A key that is written keeps its place, and a new one comes last. -/
theorem keys_insert (map : OrderedMap κ β) (key : κ) (value : β) :
    (map.insert key value).keys =
      if key ∈ map.keys then map.keys else map.keys ++ [key] := by
  by_cases present : key ∈ map.keys
  · rw [if_pos present, keys_insert_of_mem present]
  · rw [if_neg present, keys, toList_insert_of_not_mem present, List.map_append]
    rfl

theorem keys_erase (map : OrderedMap κ β) (key : κ) :
    (map.erase key).keys = map.keys.filter (· ≠ key) := by
  rw [keys, keys, erase, List.filter_map]
  rfl

theorem mem_insert_iff {map : OrderedMap κ β} {key : κ} {value : β}
    {entry : κ × β} :
    entry ∈ (map.insert key value).toList ↔
      entry = (key, value) ∨ entry.1 ≠ key ∧ entry ∈ map.toList := by
  obtain ⟨label, held⟩ := entry
  rw [← get?_eq_some_iff, get?_insert]
  by_cases same : label = key
  · simp [same, eq_comm]
  · simp [same, get?_eq_some_iff]

theorem mem_erase_iff {map : OrderedMap κ β} {key : κ} {entry : κ × β} :
    entry ∈ (map.erase key).toList ↔ entry.1 ≠ key ∧ entry ∈ map.toList := by
  obtain ⟨label, held⟩ := entry
  rw [← get?_eq_some_iff, get?_erase]
  by_cases same : label = key
  · simp [same]
  · simp [same, get?_eq_some_iff]

/-- A map whose entries are those of another one, with their values changed. -/
theorem get?_of_entries {γ : Type v} {map : OrderedMap κ β}
    {changed : OrderedMap κ γ} {change : κ → β → γ}
    (entries : changed.toList =
      map.toList.map (fun entry => (entry.1, change entry.1 entry.2)))
    (key : κ) : changed.get? key = (map.get? key).map (change key) := by
  have found : ∀ listed : List (κ × β),
      find key (listed.map (fun entry => (entry.1, change entry.1 entry.2))) =
        (find key listed).map (change key) := by
    intro listed
    induction listed with
    | nil => rfl
    | cons entry rest induction =>
        obtain ⟨label, held⟩ := entry
        by_cases same : label = key
        · subst same
          simp [find]
        · simp [find, same, induction]
  rw [get?, entries]
  exact found map.toList

private theorem map_get?_keys (map : OrderedMap κ β) :
    map.keys.map (fun key => (map.get? key).map (Prod.mk key)) = map.toList.map some := by
  rw [keys, List.map_map]
  apply List.map_congr_left
  intro entry membership
  rw [Function.comp_apply, get?_eq_some_iff.mpr membership]
  rfl

/-- A map is known by its keys in their order and by what it has at each of them. -/
theorem eq_of_keys {first second : OrderedMap κ β} (same : first.keys = second.keys)
    (values : ∀ key ∈ first.keys, first.get? key = second.get? key) : first = second := by
  apply ext
  apply (List.map_inj_right (fun _ _ => Option.some.inj)).mp
  rw [← map_get?_keys first, ← map_get?_keys second, ← same]
  apply List.map_congr_left
  intro key membership
  rw [values key membership]

section Map

variable {γ : Type v}

theorem get?_map (change : β → γ) (map : OrderedMap κ β) (key : κ) :
    (map.map change).get? key = (map.get? key).map change :=
  @get?_of_entries _ _ _ _ map (map.map change) (fun _ => change) rfl key

/-- Values are changed before or after one of them is written. -/
theorem map_insert (change : β → γ) (map : OrderedMap κ β) (key : κ) (value : β) :
    (map.insert key value).map change =
      (map.map change).insert key (change value) := by
  have assigned : ∀ entries : List (κ × β),
      (assign key value entries).map (fun entry => (entry.1, change entry.2)) =
        assign key (change value)
          (entries.map (fun entry => (entry.1, change entry.2))) := by
    intro entries
    induction entries with
    | nil => rfl
    | cons entry rest induction =>
        obtain ⟨label, held⟩ := entry
        by_cases same : label = key
        · simp [assign, same]
        · simp [assign, same, induction]
  exact ext (assigned map.toList)

theorem map_erase (change : β → γ) (map : OrderedMap κ β) (key : κ) :
    (map.erase key).map change = (map.map change).erase key := by
  apply ext
  simp only [OrderedMap.map, erase, discard, List.filter_map]
  rfl

end Map

/-- Nothing is forgotten of a key that is not there. -/
theorem erase_of_not_mem {map : OrderedMap κ β} {key : κ} (absent : key ∉ map.keys) :
    map.erase key = map := by
  apply ext
  apply List.filter_eq_self.mpr
  intro entry membership
  have different : entry.1 ≠ key := by
    rintro rfl
    exact absent (List.mem_map_of_mem membership)
  simpa using different

end LinearProgram.OrderedMap
