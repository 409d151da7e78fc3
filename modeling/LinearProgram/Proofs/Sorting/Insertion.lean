import LinearProgram.Sorting.Merge

/-!
# Sorting by insertion sorts

For a strict weak order, the place that halving finds for an item is where the items that
it must not precede end.  So insertion keeps a list in order, and so does every further one.
The search in doubling strides finds the end of such a part as well; merging relies on it.
-/

namespace LinearProgram.Sorting

variable {β : Type}

/-- A strict order in which not being ordered is transitive. -/
structure Orders (before : β → β → Bool) : Prop where
  asymm : ∀ {first second}, before first second = true → before second first = false
  trans : ∀ {first second third}, before second first = false →
    before third second = false → before third first = false

/-- No item has to stand before an earlier one. -/
def Ascending (before : β → β → Bool) (items : List β) : Prop :=
  items.Pairwise (fun first second => before second first = false)

section Search

variable {passes : Nat → Bool} {length : Nat}

/-- The positions below the length that pass a test are those before the cut. -/
structure Splits (passes : Nat → Bool) (length cut : Nat) : Prop where
  within : cut ≤ length
  pass : ∀ position < cut, passes position = true
  fail : ∀ position, cut ≤ position → position < length → passes position = false

/-- All positions before one that passes a test pass it as well. -/
def Downward (passes : Nat → Bool) (length : Nat) : Prop :=
  ∀ earlier later, earlier ≤ later → later < length → passes later = true →
    passes earlier = true

theorem Downward.fails (downward : Downward passes length) {middle : Nat}
    (failed : passes middle = false) :
    ∀ position, middle ≤ position → position < length → passes position = false := by
  intro position later below
  rw [Bool.eq_false_iff]
  intro passed
  have both := downward middle position later below passed
  rw [failed] at both
  cases both

theorem Downward.passes_lt (downward : Downward passes length) {middle : Nat}
    (below : middle < length) (passed : passes middle = true) :
    ∀ position < middle + 1, passes position = true := by
  intro position earlier
  exact downward position middle (Nat.le_of_lt_succ earlier) below passed

/-- Halving an interval around the cut finds the cut. -/
theorem splits_boundary (downward : Downward passes length) (forward : Bool)
    {low high : Nat} (ordered : low ≤ high) (within : high ≤ length)
    (pass : ∀ position < low, passes position = true)
    (fail : ∀ position, high ≤ position → position < length → passes position = false) :
    Splits passes length (boundary passes forward low high) := by
  fun_induction boundary passes forward low high with
  | case1 low high below half middle passed induction =>
      have inside : middle < high := by
        simp only [middle, half]
        split <;> omega
      exact induction inside within
        (downward.passes_lt (Nat.lt_of_lt_of_le inside within) passed) fail
  | case2 low high below half middle failed induction =>
      have inside : low ≤ middle ∧ middle < high := by
        simp only [middle, half]
        split <;> omega
      rw [Bool.not_eq_true] at failed
      exact induction inside.1 (by omega) pass (downward.fails failed)
  | case3 low high notBelow =>
      have same : low = high := by omega
      subst same
      exact ⟨within, pass, fail⟩

/-- Doubling strides end at a position that passes and one that does not. -/
theorem stride_spec (downward : Downward passes length) {last next : Nat}
    (below : last < length) (ordered : last < next) (passed : passes last = true) :
    ∃ low high, stride passes length last next = (low, high) ∧ low < length ∧ low < high ∧
      passes low = true ∧ ∀ position, high ≤ position → position < length →
        passes position = false := by
  fun_induction stride passes length last next with
  | case1 last next further induction =>
      simp only [Bool.and_eq_true, decide_eq_true_eq] at further
      exact induction further.1.1 (by omega) further.2
  | case2 last next stopped =>
      refine ⟨last, next, rfl, below, ordered, passed, ?_⟩
      intro position later inside
      have failed : passes next = false := by
        rw [Bool.eq_false_iff]
        intro next
        apply stopped
        simp only [next, ordered, decide_true, Bool.and_true, decide_eq_true_eq]
        omega
      exact downward.fails failed position later inside

/-- A search finds the cut, whichever way it counts. -/
theorem splits_passing (downward : Downward passes length) (forward : Bool) :
    Splits passes length (passing passes forward length) := by
  unfold passing
  split
  · rename_i passed
    rcases Nat.eq_zero_or_pos length with rfl | positive
    · have cut : ∀ low high, boundary passes forward (low + 1) (min high 0) = 0 := by
        intro low high
        rw [boundary, if_neg (by omega), Nat.min_zero]
      generalize stride passes 0 0 1 = strides
      obtain ⟨low, high⟩ := strides
      dsimp only
      rw [cut]
      exact ⟨Nat.le_refl 0, nofun, nofun⟩
    · obtain ⟨low, high, strides, below, ordered, lowest, fail⟩ :=
        stride_spec downward positive Nat.zero_lt_one passed
      rw [strides]
      apply splits_boundary downward forward
      · omega
      · exact Nat.min_le_right high length
      · exact downward.passes_lt below lowest
      · intro position later inside
        exact fail position (by omega) inside
  · rename_i failed
    rw [Bool.not_eq_true] at failed
    exact ⟨Nat.zero_le length, nofun, downward.fails failed⟩

end Search

section Cuts

variable {test : β → Bool} {items : List β} {passes : Nat → Bool} {cut : Nat}

/-- The items that pass a test are those before the cut. -/
structure Cuts (test : β → Bool) (items : List β) (cut : Nat) : Prop where
  taken : ∀ item ∈ items.take cut, test item = true
  left : ∀ item ∈ items.drop cut, test item = false

theorem downward_of_pairwise
    (ordered : items.Pairwise (fun first second => test second = true → test first = true))
    (reads : ∀ position (below : position < items.length),
      passes position = test items[position]) : Downward passes items.length := by
  intro earlier later order below passed
  rcases Nat.eq_or_lt_of_le order with rfl | strictly
  · exact passed
  · have inside : earlier < items.length := Nat.lt_trans strictly below
    rw [reads later below] at passed
    rw [reads earlier inside]
    exact List.pairwise_iff_getElem.mp ordered earlier later inside below strictly passed

theorem Splits.cuts (splits : Splits passes items.length cut)
    (reads : ∀ position (below : position < items.length),
      passes position = test items[position]) : Cuts test items cut where
  taken := by
    intro item membership
    obtain ⟨position, below, rfl⟩ := List.mem_take_iff_getElem.mp membership
    rw [← reads]
    exact splits.pass position (Nat.lt_of_lt_of_le below (Nat.min_le_left ..))
  left := by
    intro item membership
    obtain ⟨position, below, rfl⟩ := List.mem_drop_iff_getElem.mp membership
    rw [← reads]
    exact splits.fail _ (Nat.le_add_right ..) (Nat.add_comm cut position ▸ below)

/-- A search finds where the items that pass a test end. -/
theorem cuts_passing
    (ordered : items.Pairwise (fun first second => test second = true → test first = true))
    (reads : ∀ position (below : position < items.length),
      passes position = test items[position]) (forward : Bool) :
    Cuts test items (passing passes forward items.length) :=
  (splits_passing (downward_of_pairwise ordered reads) forward).cuts reads

end Cuts

section Insertion

variable {before : β → β → Bool} (orders : Orders before)

include orders

theorem Orders.irrefl (item : β) : before item item = false := by
  cases order : before item item with
  | false => rfl
  | true => exact order.symm.trans (orders.asymm order)

theorem cuts_place {sorted : List β} (ascending : Ascending before sorted) (item : β) :
    Cuts (fun other => !before item other) sorted (place before item sorted) := by
  have reads : ∀ position (below : position < sorted.length),
      (!sorted[position]?.any (before item)) = !before item sorted[position] := by
    intro position below
    simp [below]
  have notLater : sorted.Pairwise (fun first second =>
      (!before item second) = true → (!before item first) = true) := by
    apply ascending.imp
    intro first second order passed
    rw [Bool.not_eq_true'] at passed ⊢
    exact orders.trans order passed
  have downward := @downward_of_pairwise β (fun other => !before item other) _ _ notLater reads
  exact (splits_boundary downward true (Nat.zero_le _) (Nat.le_refl _) nofun
    (fun position later below => absurd below (Nat.not_lt.mpr later))).cuts reads

theorem ascending_insert {sorted : List β} (ascending : Ascending before sorted)
    (item : β) : Ascending before (insert before sorted item) := by
  have cuts := cuts_place orders ascending item
  unfold insert Ascending
  rw [Ascending, ← List.take_append_drop (place before item sorted) sorted,
    List.pairwise_append] at ascending
  obtain ⟨taken, left, across⟩ := ascending
  refine List.pairwise_append.mpr ⟨taken, List.pairwise_cons.mpr ⟨?_, left⟩, ?_⟩
  · intro other membership
    apply orders.asymm
    simpa using cuts.left other membership
  · intro first membership second later
    rcases List.mem_cons.mp later with rfl | later
    · simpa using cuts.taken first membership
    · exact across first membership second later

theorem ascending_foldl_insert {sorted : List β} (ascending : Ascending before sorted)
    (items : List β) : Ascending before (items.foldl (insert before) sorted) := by
  induction items generalizing sorted with
  | nil => exact ascending
  | cons item rest induction => exact induction (ascending_insert orders ascending item)

omit orders in
/-- A run is ordered as a whole if each step of it is. -/
theorem pairwise_run {ordered : β → β → Prop} {continues : β → β → Bool}
    (trans : ∀ {first second third}, ordered first second → ordered second third →
      ordered first third)
    (steps : ∀ {first second}, continues first second = true → ordered first second)
    (previous : β) (items : List β) :
    (previous :: items.take (runLength continues previous items)).Pairwise ordered := by
  induction items generalizing previous with
  | nil => simp
  | cons item rest induction =>
      cases continued : continues previous item with
      | false => simp [runLength, continued]
      | true =>
          have tail := induction item
          simp only [runLength, continued, if_true, List.take_succ_cons]
          refine List.pairwise_cons.mpr ⟨?_, tail⟩
          intro other membership
          have first := steps continued
          rcases List.mem_cons.mp membership with rfl | later
          · exact first
          · exact trans first (List.rel_of_pairwise_cons tail later)

theorem ascending_firstRun (items : List β) :
    Ascending before (firstRun before items).1 := by
  match items with
  | [] => exact .nil
  | [item] => exact List.pairwise_singleton _ item
  | first :: second :: rest =>
      cases downwards : before second first with
      | true =>
          simp only [firstRun, downwards, if_true, Ascending, List.pairwise_reverse]
          have run := @pairwise_run β (fun first second => before first second = false)
            (fun previous item => before item previous)
            (fun one two => orders.trans two one) orders.asymm first (second :: rest)
          simpa [runLength, downwards] using run
      | false =>
          simp only [firstRun, downwards, Bool.false_eq_true, if_false, Ascending]
          have run := @pairwise_run β (fun first second => before second first = false)
            (fun previous item => !before item previous)
            orders.trans (fun upwards => by simpa using upwards) first (second :: rest)
          simpa [runLength, downwards] using run

/-- Sorting by insertion puts a list in order. -/
theorem ascending_byInsertion (items : List β) :
    Ascending before (byInsertion before items) :=
  ascending_foldl_insert orders (ascending_firstRun orders items) _

end Insertion

end LinearProgram.Sorting
