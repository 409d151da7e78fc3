import LinearProgram.Expression.Heap
import LinearProgram.Proofs.Outcome

/-!
# What changes of a heap leave alone

No two objects have the same table.  So a change of one object, or of a table
that no object has, leaves all other objects as they were, with their terms.
-/

namespace LinearProgram.Heap

variable {α : Type} {heap : Heap α} {number : Nat} {body : Body α}

/-- Every object has a table, and no two objects have the same. -/
structure Separate (heap : Heap α) : Prop where
  stored : ∀ {number : Nat} {body : Body α},
    heap.bodies[number]? = some body → body.table < heap.tables.length
  apart : ∀ {number other : Nat} {body second : Body α},
    heap.bodies[number]? = some body → heap.bodies[other]? = some second →
      body.table = second.table → number = other

/-- A table that no object has. -/
structure Free (heap : Heap α) (table : Nat) : Prop where
  stored : table < heap.tables.length
  apart : ∀ {number : Nat} {body : Body α},
    heap.bodies[number]? = some body → body.table ≠ table

/-- One heap comes after another one, and some of the objects are as they were. -/
structure Keeps (kept : Nat → Prop) (before after : Heap α) : Prop where
  separate : after.Separate
  growth : before.size ≤ after.size
  same : ∀ number < before.size, kept number →
    after.read? number = before.read? number

section Keeping

variable {kept : Nat → Prop} {first second third : Heap α}

theorem Keeps.refl (separate : heap.Separate) : Keeps kept heap heap :=
  ⟨separate, Nat.le_refl _, fun _ _ _ => rfl⟩

theorem Keeps.trans {later : Nat → Prop} (early : Keeps kept first second)
    (late : Keeps later second third)
    (further : ∀ number < first.size, kept number → later number) :
    Keeps kept first third where
  separate := late.separate
  growth := Nat.le_trans early.growth late.growth
  same := by
    intro number present wanted
    have still := Nat.lt_of_lt_of_le present early.growth
    rw [late.same number still (further number present wanted)]
    exact early.same number present wanted

theorem Keeps.mono {fewer : Nat → Prop} (keeps : Keeps kept first second)
    (less : ∀ number, fewer number → kept number) : Keeps fewer first second :=
  ⟨keeps.separate, keeps.growth,
    fun number present wanted => keeps.same number present (less number wanted)⟩

theorem Keeps.seen_eq [Scalar α] {outlook : Outlook α}
    (keeps : Keeps kept first second) (present : number < first.size)
    (wanted : kept number) :
    second.seen outlook number = first.seen outlook number := by
  unfold seen
  rw [keeps.same number present wanted]

end Keeping

section Reading

theorem read?_of_body (found : heap.bodies[number]? = some body) :
    heap.read? number =
      some ⟨heap.termsAt body.table, body.constant, body.relation⟩ := by
  rw [read?, found]
  rfl

theorem read?_eq_none (absent : heap.bodies[number]? = none) :
    heap.read? number = none := by
  rw [read?, absent]
  rfl

theorem read?_of_size_le (beyond : heap.size ≤ number) : heap.read? number = none :=
  read?_eq_none (List.getElem?_eq_none beyond)

theorem exists_body (present : number < heap.size) :
    ∃ body, heap.bodies[number]? = some body :=
  ⟨_, List.getElem?_eq_getElem present⟩

/-- An object with the same members and the same terms is the same. -/
private theorem read?_congr {other : Heap α}
    (bodies : other.bodies[number]? = heap.bodies[number]?)
    (terms : ∀ body, heap.bodies[number]? = some body →
      other.termsAt body.table = heap.termsAt body.table) :
    other.read? number = heap.read? number := by
  cases found : heap.bodies[number]? with
  | none =>
      rw [read?_eq_none found, read?_eq_none (bodies.trans found)]
  | some body =>
      rw [read?_of_body found, read?_of_body (bodies.trans found),
        terms body found]

end Reading

section Tables

variable {terms : Terms α} {table : Nat}

theorem termsAt_putTable_self (stored : table < heap.tables.length) :
    (heap.putTable table terms).termsAt table = terms := by
  simp [termsAt, putTable, stored]

theorem termsAt_putTable_of_ne {other : Nat} (different : other ≠ table) :
    (heap.putTable table terms).termsAt other = heap.termsAt other := by
  simp [termsAt, putTable, different.symm]

theorem putTable_termsAt (stored : table < heap.tables.length) :
    heap.putTable table (heap.termsAt table) = heap := by
  simp [putTable, termsAt, stored]

theorem putTable_putTable (earlier later : Terms α) :
    (heap.putTable table earlier).putTable table later =
      heap.putTable table later := by
  simp [putTable]

theorem termsAt_addTable_self :
    (heap.addTable terms).termsAt heap.tables.length = terms := by
  simp [termsAt, addTable]

theorem termsAt_addTable_of_lt {other : Nat} (stored : other < heap.tables.length) :
    (heap.addTable terms).termsAt other = heap.termsAt other := by
  simp [termsAt, addTable, List.getElem?_append_left stored]

theorem Separate.addTable (separate : heap.Separate) :
    (heap.addTable terms).Separate where
  stored found := by
    have stored := separate.stored found
    simp only [Heap.addTable, List.length_append]
    omega
  apart := separate.apart

theorem Separate.free_addTable (separate : heap.Separate) :
    (heap.addTable terms).Free heap.tables.length where
  stored := by simp [Heap.addTable]
  apart found := Nat.ne_of_lt (separate.stored found)

theorem Separate.keeps_addTable {kept : Nat → Prop} (separate : heap.Separate) :
    Keeps kept heap (heap.addTable terms) where
  separate := separate.addTable
  growth := Nat.le_refl _
  same _ _ _ := read?_congr rfl
    (fun _ found => termsAt_addTable_of_lt (separate.stored found))

theorem Separate.putTable (separate : heap.Separate) :
    (heap.putTable table terms).Separate where
  stored found := by
    simp only [Heap.putTable, List.length_set]
    exact separate.stored found
  apart := separate.apart

theorem Free.putTable {other : Nat} (free : heap.Free table) :
    (heap.putTable other terms).Free table where
  stored := by
    simp only [Heap.putTable, List.length_set]
    exact free.stored
  apart := free.apart

theorem Free.keeps_putTable {kept : Nat → Prop} (free : heap.Free table)
    (separate : heap.Separate) : Keeps kept heap (heap.putTable table terms) where
  separate := separate.putTable
  growth := Nat.le_refl _
  same _ _ _ := read?_congr rfl
    (fun _ found => termsAt_putTable_of_ne (free.apart found))

end Tables

section Objects

/-- A new object in a table that was free. -/
theorem Free.keeps_addBody {kept : Nat → Prop} (free : heap.Free body.table)
    (separate : heap.Separate) : Keeps kept heap (heap.addBody body) := by
  have split : ∀ {number : Nat} {found : Body α},
      (heap.addBody body).bodies[number]? = some found →
        heap.bodies[number]? = some found ∨
          number = heap.size ∧ found = body := by
    intro number found given
    simp only [addBody, List.getElem?_append] at given
    split at given
    · exact .inl given
    · rw [List.getElem?_singleton] at given
      split at given
      · cases given
        exact .inr ⟨by unfold size; omega, rfl⟩
      · cases given
  refine ⟨⟨?stored, ?apart⟩, ?growth, ?same⟩
  case stored =>
    intro number found given
    rcases split given with old | ⟨_, rfl⟩
    · exact separate.stored old
    · exact free.stored
  case apart =>
    intro number other found second given next equal
    rcases split given with old | ⟨rfl, rfl⟩ <;>
      rcases split next with older | ⟨rfl, rfl⟩
    · exact separate.apart old older equal
    · exact absurd equal (free.apart old)
    · exact absurd equal.symm (free.apart older)
    · rfl
  case growth => simp [size, addBody]
  case same =>
    intro number present _
    exact read?_congr (List.getElem?_append_left present) (fun _ _ => rfl)

theorem read?_addBody_self : (heap.addBody body).read? heap.size =
    some ⟨heap.termsAt body.table, body.constant, body.relation⟩ := by
  apply read?_of_body
  simp [addBody, size]

variable {change : Body α → Body α}

/-- A changed object keeps its table or gets one that was free. -/
theorem Separate.keeps_modifyBody (separate : heap.Separate)
    (placed : ∀ body, heap.bodies[number]? = some body →
      (change body).table = body.table ∨ heap.Free (change body).table) :
    Keeps (· ≠ number) heap (heap.modifyBody number change) := by
  have split : ∀ {other : Nat} {found : Body α},
      (heap.modifyBody number change).bodies[other]? = some found →
        (other ≠ number ∧ heap.bodies[other]? = some found) ∨
          (other = number ∧ ∃ old, heap.bodies[number]? = some old ∧
            found = change old) := by
    intro other found given
    simp only [modifyBody, List.getElem?_modify] at given
    by_cases same : number = other
    · subst same
      simp only [if_true, Option.map_eq_map, Option.map_eq_some_iff] at given
      obtain ⟨old, present, changed⟩ := given
      exact .inr ⟨rfl, old, present, changed.symm⟩
    · simp only [if_neg same, id_map'] at given
      exact .inl ⟨Ne.symm same, given⟩
  refine ⟨⟨?stored, ?apart⟩, ?growth, ?same⟩
  case stored =>
    intro other found given
    rcases split given with ⟨_, present⟩ | ⟨_, old, present, rfl⟩
    · exact separate.stored present
    · rcases placed old present with same | free
      · rw [same]
        exact separate.stored present
      · exact free.stored
  case apart =>
    intro one other found second given next equal
    rcases split given with ⟨away, old⟩ | ⟨rfl, old, present, rfl⟩ <;>
      rcases split next with ⟨further, older⟩ | ⟨rfl, older, there, rfl⟩
    · exact separate.apart old older equal
    · rcases placed older there with same | free
      · exact separate.apart old there (equal.trans same)
      · exact absurd equal (free.apart old)
    · rcases placed old present with same | free
      · exact separate.apart present older (same.symm.trans equal)
      · exact absurd equal.symm (free.apart older)
    · rfl
  case growth => simp [size, modifyBody]
  case same =>
    intro other _ different
    apply read?_congr
    · simp [modifyBody, Ne.symm different]
    · exact fun _ _ => rfl

theorem read?_modifyBody_self (found : heap.bodies[number]? = some body) :
    (heap.modifyBody number change).read? number =
      some ⟨heap.termsAt (change body).table, (change body).constant,
        (change body).relation⟩ := by
  apply read?_of_body
  simp [modifyBody, found]

/-- An object whose terms are replaced in its own table. -/
theorem Separate.keeps_putTerms {terms : Terms α} (separate : heap.Separate) :
    Keeps (· ≠ number) heap (heap.putTerms number terms) := by
  unfold putTerms
  split
  · rename_i body found
    refine ⟨separate.putTable, Nat.le_refl _, ?_⟩
    intro other _ different
    apply read?_congr
    · rfl
    · intro second present
      apply termsAt_putTable_of_ne
      intro equal
      exact different (separate.apart present found equal)
  · exact .refl separate

theorem Separate.read?_putTerms {terms : Terms α} (separate : heap.Separate)
    (found : heap.bodies[number]? = some body) :
    (heap.putTerms number terms).read? number =
      some ⟨terms, body.constant, body.relation⟩ := by
  have still : (heap.putTable body.table terms).bodies[number]? = some body := found
  simp only [putTerms, found]
  rw [read?_of_body still, termsAt_putTable_self (separate.stored found)]

end Objects

end LinearProgram.Heap
