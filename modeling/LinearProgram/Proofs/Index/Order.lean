import LinearProgram.Index
import LinearProgram.Proofs.Sorting.Order
import LinearProgram.Scalar.Double
import Mathlib

/-!
# The order of indices

Indices of numbers are ordered as the numbers are, with the two infinite ones at the ends.  An
undefined index is not ordered at all, so with it the order is none: it may stand between any two
other indices.  Without it, indices have one order only, in whatever order they come.
-/

namespace LinearProgram.Index

variable {first second : Index} {number other : Rat}

/-- The index is that of a number, and not the undefined one. -/
inductive Numeric : Index → Prop where
  | below : Numeric .below
  | above : Numeric .above
  | ofRat (number : Rat) : Numeric (ofRat number)

/-- The place of an index among all numbers and the two infinite ones. -/
def rank (index : Index) : WithBot (WithTop Rat) :=
  match index with
  | below => ⊥
  | above => ((⊤ : WithTop Rat) : WithBot (WithTop Rat))
  | finite => (((finite.toRat?.getD 0 : Rat) : WithTop Rat) : WithBot (WithTop Rat))

/-- A rational is filed as a place or under its own value. -/
theorem ofRat_cases (number : Rat) :
    (∃ position : Nat, ofRat number = place position ∧ (position : Rat) = number) ∨
      ofRat number = elsewhere number := by
  unfold ofRat
  split
  · rename_i whole
    refine .inl ⟨number.num.toNat, rfl, ?_⟩
    have natural : ((number.num.toNat : Int) : Rat) = number.num := by
      rw [Int.toNat_of_nonneg whole.2.1]
    rw [← Int.cast_natCast, natural]
    exact Rat.coe_int_num_of_den_eq_one whole.1
  · exact .inr rfl

theorem toRat?_ofRat (number : Rat) : (ofRat number).toRat? = some number := by
  rcases ofRat_cases number with ⟨position, place, value⟩ | elsewhere
  · rw [place, toRat?, value]
  · rw [elsewhere, toRat?]

theorem rank_ofRat (number : Rat) :
    (ofRat number).rank = ((number : WithTop Rat) : WithBot (WithTop Rat)) := by
  rcases ofRat_cases number with ⟨position, place, rfl⟩ | elsewhere
  · rw [place]
    rfl
  · rw [elsewhere]
    rfl

/-- Two numbers of one rank are filed under one index. -/
theorem rank_injective (numeric : Numeric first) (otherNumeric : Numeric second)
    (same : first.rank = second.rank) : first = second := by
  cases numeric with
  | below =>
      cases otherNumeric with
      | below => rfl
      | above => cases same
      | ofRat other => rw [rank_ofRat] at same; cases same
  | above =>
      cases otherNumeric with
      | below => cases same
      | above => rfl
      | ofRat other => rw [rank_ofRat] at same; cases same
  | ofRat number =>
      rw [rank_ofRat] at same
      cases otherNumeric with
      | below => cases same
      | above => cases same
      | ofRat other =>
          rw [rank_ofRat, WithBot.coe_inj, WithTop.coe_inj] at same
          rw [same]

section Before

private theorem before_of_toRat? (value : first.toRat? = some number)
    (otherValue : second.toRat? = some other) :
    first.before Float second = decide (number < other) := by
  cases first <;> cases value <;> cases second <;> cases otherValue <;> rfl

private theorem infinite_of_toRat? (value : first.toRat? = some number) :
    (below.before Float first = true ∧ first.before Float below = false) ∧
      above.before Float first = false ∧ first.before Float above = true := by
  cases first <;> cases value <;> exact ⟨⟨rfl, rfl⟩, rfl, rfl⟩

/-- Indices of numbers are ordered by rank. -/
theorem before_eq (numeric : Numeric first) (otherNumeric : Numeric second) :
    first.before Float second = decide (first.rank < second.rank) := by
  cases numeric with
  | below =>
      cases otherNumeric with
      | below => rfl
      | above => rfl
      | ofRat other =>
          rw [(infinite_of_toRat? (toRat?_ofRat other)).1.1, rank_ofRat]
          exact (decide_eq_true (WithBot.bot_lt_coe _)).symm
  | above =>
      cases otherNumeric with
      | below => rfl
      | above => rw [decide_eq_false (lt_irrefl _)]; rfl
      | ofRat other =>
          rw [(infinite_of_toRat? (toRat?_ofRat other)).2.1, rank_ofRat]
          exact (decide_eq_false (not_lt_of_ge (WithBot.coe_le_coe.mpr le_top))).symm
  | ofRat number =>
      cases otherNumeric with
      | below =>
          rw [(infinite_of_toRat? (toRat?_ofRat number)).1.2, rank_ofRat]
          exact (decide_eq_false (not_lt_of_ge bot_le)).symm
      | above =>
          rw [(infinite_of_toRat? (toRat?_ofRat number)).2.2, rank_ofRat]
          exact (decide_eq_true (WithBot.coe_lt_coe.mpr (WithTop.coe_lt_top _))).symm
      | ofRat other =>
          rw [before_of_toRat? (toRat?_ofRat number) (toRat?_ofRat other), rank_ofRat,
            rank_ofRat]
          simp only [WithBot.coe_lt_coe, WithTop.coe_lt_coe]

/-- Among indices of numbers, the order is a strict weak one. -/
theorem orders_numeric : Sorting.Orders
    (fun first second : Subtype Numeric => first.1.before Float second.1) where
  asymm := by
    intro first second order
    rw [before_eq first.2 second.2, decide_eq_true_iff] at order
    rw [before_eq second.2 first.2, decide_eq_false_iff_not]
    exact lt_asymm order
  trans := by
    intro first second third one two
    rw [before_eq second.2 first.2, decide_eq_false_iff_not] at one
    rw [before_eq third.2 second.2, decide_eq_false_iff_not] at two
    rw [before_eq third.2 first.2, decide_eq_false_iff_not]
    exact not_lt_of_ge (le_trans (le_of_not_gt one) (le_of_not_gt two))

end Before

/-- The same indices of numbers are sorted alike, in whatever order they come. -/
theorem sort_eq_of_perm {indices others : List Index}
    (numeric : ∀ index ∈ indices, Numeric index) (same : indices.Perm others) :
    Sorting.sort (before Float) indices = Sorting.sort (before Float) others := by
  have otherNumeric : ∀ index ∈ others, Numeric index :=
    fun index membership => numeric index (same.mem_iff.mpr membership)
  have agrees : Sorting.Agrees
      (fun first second : Subtype Numeric => first.1.before Float second.1)
      (before Float) Subtype.val := fun _ _ => rfl
  have attached : ∀ {listed : List Index} (all : ∀ index ∈ listed, Numeric index),
      (listed.attachWith Numeric all).map Subtype.val = listed :=
    fun all => List.attachWith_map_subtype_val all
  rw [← attached numeric, ← attached otherNumeric, Sorting.sort_map agrees,
    Sorting.sort_map agrees]
  apply congrArg
  apply Sorting.sort_eq_of_perm orders_numeric
  · exact same.pmap Subtype.mk
  · intro first _ second _ notAfter notBefore
    rw [before_eq first.2 second.2, decide_eq_false_iff_not] at notAfter
    rw [before_eq second.2 first.2, decide_eq_false_iff_not] at notBefore
    exact Subtype.ext (rank_injective first.2 second.2
      (le_antisymm (le_of_not_gt notBefore) (le_of_not_gt notAfter)))

end LinearProgram.Index
