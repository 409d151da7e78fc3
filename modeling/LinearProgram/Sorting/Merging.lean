import LinearProgram.Sorting.Merge

/-!
# Sorting by merging runs

A long list is cut into runs.  A run that is too short is lengthened by insertion.  Runs wait on a
stack until they are merged with a neighbour, so that the lengths on the stack decrease fast enough.

For a strict weak order the outcome is that of sorting by insertion.
-/

namespace LinearProgram.Sorting

variable {β : Type}

/-- The runs that wait, the last one first, and the patience that is left. -/
structure Pending (β : Type) where
  runs : List (List β)
  patience : Nat

namespace Pending

variable (before : β → β → Bool)

def mergeLast (pending : Pending β) : Pending β :=
  match pending.runs with
  | last :: previous :: others =>
    let merged := merge before pending.patience previous last
    ⟨merged.items :: others, merged.patience⟩
  | _ => pending

def mergePrevious (pending : Pending β) : Pending β :=
  match pending.runs with
  | last :: others =>
    let merged := mergeLast before ⟨others, pending.patience⟩
    ⟨last :: merged.runs, merged.patience⟩
  | _ => pending

/-- Merge the last run but one with the shorter of its neighbours. -/
def mergeShorter (pending : Pending β) : Pending β :=
  match pending.runs with
  | last :: _ :: third :: _ =>
    if third.length < last.length then mergePrevious before pending else mergeLast before pending
  | _ => mergeLast before pending

def items (pending : Pending β) : List β := pending.runs.flatten

theorem mergeLast_perm (pending : Pending β) :
    (mergeLast before pending).items.Perm pending.items := by
  unfold mergeLast items
  split
  next last previous others runs =>
    rw [runs]
    simpa [← List.append_assoc] using
      ((merge_perm before pending.patience previous last).trans
        List.perm_append_comm).append_right others.flatten
  · exact .refl _

theorem mergePrevious_perm (pending : Pending β) :
    (mergePrevious before pending).items.Perm pending.items := by
  unfold mergePrevious
  split
  next last others runs =>
    unfold items
    rw [runs]
    exact (mergeLast_perm before ⟨others, pending.patience⟩).append_left last
  · exact .refl _

theorem mergeShorter_perm (pending : Pending β) :
    (mergeShorter before pending).items.Perm pending.items := by
  unfold mergeShorter
  split
  · split
    · exact mergePrevious_perm before pending
    · exact mergeLast_perm before pending
  · exact mergeLast_perm before pending

/-- Whether the lengths of three runs decrease fast enough. -/
def decreasing : List (List β) → Bool
  | last :: previous :: third :: _ => previous.length + last.length < third.length
  | _ => true

/-- Merge until the lengths decrease fast enough, with so many merges at most. -/
def collapse : Nat → Pending β → Pending β
  | 0, pending => pending
  | merges + 1, pending =>
    match pending.runs with
    | last :: previous :: others =>
      if !decreasing (last :: previous :: others) || !decreasing (previous :: others) then
        collapse merges (mergeShorter before pending)
      else if previous.length ≤ last.length then collapse merges (mergeLast before pending)
      else pending
    | _ => pending

theorem collapse_perm (merges : Nat) (pending : Pending β) :
    (collapse before merges pending).items.Perm pending.items := by
  induction merges generalizing pending with
  | zero => exact .refl _
  | succ merges induction =>
      unfold collapse
      split
      · split
        · exact (induction _).trans (mergeShorter_perm before pending)
        · split
          · exact (induction _).trans (mergeLast_perm before pending)
          · exact .refl _
      · exact .refl _

/-- Merge all runs, with so many merges at most. -/
def mergeAll : Nat → Pending β → List β
  | 0, pending => pending.runs.reverse.flatten
  | merges + 1, pending =>
    match pending.runs with
    | [] => []
    | [run] => run
    | _ => mergeAll merges (mergeShorter before pending)

theorem mergeAll_perm (merges : Nat) (pending : Pending β) :
    (mergeAll before merges pending).Perm pending.items := by
  induction merges generalizing pending with
  | zero => exact (List.reverse_perm pending.runs).flatten
  | succ merges induction =>
      unfold mergeAll
      split
      next runs => simp [items, runs]
      next run runs => simp [items, runs]
      · exact (induction _).trans (mergeShorter_perm before pending)

end Pending

/-- Lists below this length are sorted by insertion. -/
def insertionLimit : Nat := 64

/-- The least length of a run, for a long list: the leading bits of the length of that list, rounded
up. -/
def leastRun (length : Nat) : Nat :=
  let unit := Nat.pow 2 (length.log2 - 5)
  if length % unit = 0 then length / unit else length / unit + 1

/-- Put the runs of a list on a stack. -/
def stacked (before : β → β → Bool) (least : Nat) (pending : Pending β) (items : List β) :
    Pending β :=
  if items = [] then pending
  else
    let first := firstRun before items
    let missing := least - first.1.length
    let runs := (first.2.take missing).foldl (insert before) first.1 :: pending.runs
    stacked before least (Pending.collapse before runs.length ⟨runs, pending.patience⟩)
      (first.2.drop missing)
termination_by items.length
decreasing_by
  next nonempty =>
    have fewer := firstRun_rest_lt before nonempty
    rw [List.length_drop]
    omega

theorem stacked_perm (before : β → β → Bool) (least : Nat) (pending : Pending β)
    (items : List β) :
    (stacked before least pending items).items.Perm (pending.items ++ items) := by
  induction pending, items using stacked.induct before least with
  | case1 pending => simp [stacked]
  | case2 pending items nonempty first missing runs induction =>
      rw [stacked, if_neg nonempty]
      refine induction.trans (((Pending.collapse_perm before runs.length
        ⟨runs, pending.patience⟩).append_right _).trans ?_)
      have lengthened := (foldl_insert_perm before first.1 (first.2.take missing)).append_right
        (first.2.drop missing)
      rw [List.append_assoc, List.take_append_drop] at lengthened
      have all := lengthened.trans (firstRun_perm before items)
      refine (List.perm_append_comm.append_right _).trans ?_
      rw [List.append_assoc]
      exact all.append_left pending.items

def byMerging (before : β → β → Bool) (items : List β) : List β :=
  let pending := stacked before (leastRun items.length) ⟨[], worthwhile⟩ items
  Pending.mergeAll before pending.runs.length pending

def sort (before : β → β → Bool) (items : List β) : List β :=
  if items.length < insertionLimit then byInsertion before items else byMerging before items

theorem byMerging_perm (before : β → β → Bool) (items : List β) :
    (byMerging before items).Perm items :=
  (Pending.mergeAll_perm before _ _).trans (stacked_perm before _ _ items)

/-- Sorting only rearranges. -/
theorem sort_perm (before : β → β → Bool) (items : List β) : (sort before items).Perm items := by
  unfold sort
  split
  · exact byInsertion_perm before items
  · exact byMerging_perm before items

end LinearProgram.Sorting
