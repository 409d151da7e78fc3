/-!
# Sorting by insertion

A list is sorted by a relation that says which of two items has to stand before the other.  The
longest run at the beginning is taken as it is, or reversed if it runs strictly downwards.  Each
further item is inserted into what is sorted already, at the place that halving finds, and after the
items with which it is not ordered.

For a strict weak order this is a stable sort.  For any relation it is a rearrangement of the
list, and the rule above says which one.
-/

namespace LinearProgram.Sorting

variable {β : Type}

/-- How many items continue a run: each stands to its predecessor as the run demands. -/
def runLength (continues : β → β → Bool) (previous : β) : List β → Nat
  | [] => 0
  | item :: rest => if continues previous item then runLength continues item rest + 1 else 0

/-- The run at the beginning, in upward order, and the items after it. -/
def firstRun (before : β → β → Bool) : List β → List β × List β
  | first :: second :: rest =>
    if before second first then
      let length := runLength (fun previous item => before item previous) second rest
      ((first :: second :: rest.take length).reverse, rest.drop length)
    else
      let length := runLength (fun previous item => !before item previous) second rest
      (first :: second :: rest.take length, rest.drop length)
  | items => (items, [])

/-- The end of the positions from `low` on that pass a test, if all that pass come first and the end
is not after `high`.  The interval is halved; of two middles the first or the last one is tested. -/
def boundary (passes : Nat → Bool) (forward : Bool) (low high : Nat) : Nat :=
  if low < high then
    let half := (high - low) / 2
    let middle := if forward then low + half else high - 1 - half
    if passes middle then boundary passes forward (middle + 1) high
    else boundary passes forward low middle
  else high
termination_by high - low
decreasing_by all_goals split <;> omega

/-- The place of an item in a sorted list. -/
def place (before : β → β → Bool) (item : β) (sorted : List β) : Nat :=
  boundary (fun position => !sorted[position]?.any (before item)) true 0 sorted.length

def insert (before : β → β → Bool) (sorted : List β) (item : β) : List β :=
  let position := place before item sorted
  sorted.take position ++ item :: sorted.drop position

def byInsertion (before : β → β → Bool) (items : List β) : List β :=
  let (run, rest) := firstRun before items
  rest.foldl (insert before) run

theorem insert_perm (before : β → β → Bool) (sorted : List β) (item : β) :
    (insert before sorted item).Perm (item :: sorted) := by
  have moved : (insert before sorted item).Perm
      (item :: (sorted.take (place before item sorted)
        ++ sorted.drop (place before item sorted))) := List.perm_middle
  simpa only [List.take_append_drop] using moved

theorem foldl_insert_perm (before : β → β → Bool) (sorted items : List β) :
    (items.foldl (insert before) sorted).Perm (sorted ++ items) := by
  induction items generalizing sorted with
  | nil => simp
  | cons item rest induction =>
      have grown := (insert_perm before sorted item).append_right rest
      exact (induction (insert before sorted item)).trans (grown.trans List.perm_middle.symm)

theorem firstRun_perm (before : β → β → Bool) (items : List β) :
    ((firstRun before items).1 ++ (firstRun before items).2).Perm items := by
  match items with
  | [] => exact .refl _
  | [item] => exact .refl _
  | first :: second :: rest =>
      cases downwards : before second first with
      | true =>
          simp only [firstRun, downwards, if_true]
          exact (List.Perm.append_right _ (List.reverse_perm _)).trans
            (by simp [List.take_append_drop])
      | false => simp [firstRun, downwards, List.take_append_drop]

/-- The items after the first run are fewer than all items. -/
theorem firstRun_rest_lt (before : β → β → Bool) {items : List β} (nonempty : items ≠ []) :
    (firstRun before items).2.length < items.length := by
  match items with
  | [] => exact absurd rfl nonempty
  | [item] => simp [firstRun]
  | first :: second :: rest =>
      cases downwards : before second first <;>
        simp only [firstRun, downwards, if_true, Bool.false_eq_true, if_false, List.length_drop,
          List.length_cons] <;> omega

/-- Sorting by insertion only rearranges. -/
theorem byInsertion_perm (before : β → β → Bool) (items : List β) :
    (byInsertion before items).Perm items :=
  (foldl_insert_perm before _ _).trans (firstRun_perm before items)

end LinearProgram.Sorting
