import LinearProgram.Proofs.Sorting
import LinearProgram.Proofs.Sorting.Merge

/-!
# Sorting sorts

For a strict weak order, a sorted list is in order, however long it is.  All runs that wait for a
merge are in order, and every merge of two of them leaves one run less.
-/

namespace LinearProgram.Sorting

variable {β : Type} {before : β → β → Bool} (orders : Orders before)

include orders

namespace Pending

/-- All runs that wait are in order. -/
def Ascending (before : β → β → Bool) (pending : Pending β) : Prop :=
  ∀ run ∈ pending.runs, Sorting.Ascending before run

variable {pending : Pending β}

theorem Ascending.mergeLast (ascending : pending.Ascending before) :
    (mergeLast before pending).Ascending before := by
  unfold Pending.mergeLast
  split
  · rename_i last previous others runs
    rw [Ascending, runs, List.forall_mem_cons, List.forall_mem_cons] at ascending
    obtain ⟨lastSorted, previousSorted, rest⟩ := ascending
    exact List.forall_mem_cons.mpr
      ⟨ascending_merge orders previousSorted lastSorted pending.patience, rest⟩
  · exact ascending

theorem Ascending.mergePrevious (ascending : pending.Ascending before) :
    (mergePrevious before pending).Ascending before := by
  unfold Pending.mergePrevious
  split
  · rename_i last others runs
    rw [Ascending, runs, List.forall_mem_cons] at ascending
    have rest : Ascending before ⟨others, pending.patience⟩ := ascending.2
    exact List.forall_mem_cons.mpr ⟨ascending.1, rest.mergeLast orders⟩
  · exact ascending

theorem Ascending.mergeShorter (ascending : pending.Ascending before) :
    (mergeShorter before pending).Ascending before := by
  unfold Pending.mergeShorter
  split
  · split
    · exact ascending.mergePrevious orders
    · exact ascending.mergeLast orders
  · exact ascending.mergeLast orders

theorem Ascending.collapse (ascending : pending.Ascending before) (merges : Nat) :
    (collapse before merges pending).Ascending before := by
  induction merges generalizing pending with
  | zero => exact ascending
  | succ merges induction =>
      unfold Pending.collapse
      split
      · split
        · exact induction (ascending.mergeShorter orders)
        · split
          · exact induction (ascending.mergeLast orders)
          · exact ascending
      · exact ascending

omit orders in
theorem length_mergeLast (several : 2 ≤ pending.runs.length) :
    (mergeLast before pending).runs.length + 1 = pending.runs.length := by
  obtain ⟨runs, patience⟩ := pending
  match runs with
  | [] | [_] => simp at several
  | last :: previous :: others => simp [Pending.mergeLast]

omit orders in
/-- A merge leaves one run less. -/
theorem length_mergeShorter (several : 2 ≤ pending.runs.length) :
    (mergeShorter before pending).runs.length + 1 = pending.runs.length := by
  unfold Pending.mergeShorter
  split
  · rename_i last previous third others runs
    split
    · have fewer : (mergeLast before ⟨previous :: third :: others,
          pending.patience⟩).runs.length + 1 = (previous :: third :: others).length :=
        length_mergeLast (by simp)
      simp only [Pending.mergePrevious, runs, List.length_cons] at fewer ⊢
      omega
    · exact length_mergeLast several
  · exact length_mergeLast several

theorem Ascending.mergeAll (ascending : pending.Ascending before) {merges : Nat}
    (enough : pending.runs.length ≤ merges) :
    Sorting.Ascending before (mergeAll before merges pending) := by
  induction merges generalizing pending with
  | zero =>
      have none : pending.runs = [] := List.length_eq_zero_iff.mp (Nat.le_zero.mp enough)
      simp [Pending.mergeAll, none, Sorting.Ascending]
  | succ merges induction =>
      unfold Pending.mergeAll
      split
      · exact .nil
      · rename_i run runs
        exact ascending run (by simp [runs])
      · rename_i several single
        have two : 2 ≤ pending.runs.length := by
          cases runs : pending.runs with
          | nil => exact absurd runs several
          | cons run others =>
              cases others with
              | nil => exact absurd runs (single run)
              | cons next rest => simp
        have fewer : (Pending.mergeShorter before pending).runs.length + 1 =
            pending.runs.length := length_mergeShorter two
        exact induction (ascending.mergeShorter orders) (by omega)

end Pending

theorem ascending_stacked {pending : Pending β} (ascending : pending.Ascending before)
    (least : Nat) (items : List β) : (stacked before least pending items).Ascending before := by
  induction pending, items using stacked.induct before least with
  | case1 pending =>
      rw [stacked, if_pos rfl]
      exact ascending
  | case2 pending items nonempty first missing runs induction =>
      rw [stacked, if_neg nonempty]
      apply induction
      apply Pending.Ascending.collapse orders
      exact List.forall_mem_cons.mpr
        ⟨ascending_foldl_insert orders (ascending_firstRun orders items) _, ascending⟩

theorem ascending_byMerging (items : List β) : Ascending before (byMerging before items) := by
  have none : Pending.Ascending before ⟨[], worthwhile⟩ := List.forall_mem_nil _
  exact (ascending_stacked orders none _ items).mergeAll orders (Nat.le_refl _)

/-- Sorting puts a list in order. -/
theorem ascending_sort (items : List β) : Ascending before (sort before items) := by
  unfold sort
  split
  · exact ascending_byInsertion orders items
  · exact ascending_byMerging orders items

/-- Two lists of the same items are sorted alike if none of two different items may follow the
other one. -/
theorem sort_eq_of_perm {items others : List β} (same : items.Perm others)
    (strict : ∀ first ∈ items, ∀ second ∈ items, before first second = false →
      before second first = false → first = second) :
    sort before items = sort before others := by
  have members : ∀ item ∈ sort before items, item ∈ items :=
    fun item => (sort_perm before items).mem_iff.mp
  apply List.Perm.eq_of_pairwise _ (ascending_sort orders items) (ascending_sort orders others)
    ((sort_perm before items).trans (same.trans (sort_perm before others).symm))
  intro first second membership otherMembership notAfter notBefore
  have also : second ∈ items :=
    same.mem_iff.mpr ((sort_perm before others).mem_iff.mp otherMembership)
  exact strict first (members first membership) second also notBefore notAfter

end LinearProgram.Sorting
