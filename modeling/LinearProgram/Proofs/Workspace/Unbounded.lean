import LinearProgram.Proofs.Double.Infinite
import LinearProgram.Proofs.Workspace.Runs

/-!
# Infinite bounds and conflicts

A constraint is violated for certain if its least activity is above the right hand
side, or its greatest below it.  A variable that is unbounded on the side that
matters moves that activity away from the right hand side, however the other
variables are bounded: the sum becomes infinite on its side, or undefined where it
meets the opposite side, and neither compares.

There is one exception.  Both bounds of a variable may be the same infinite number.
Then the extreme activity is infinite on the other side, and the constraint counts
as violated, unless another variable makes the sum undefined.
-/

namespace LinearProgram

open Float.Model.UnpackedFloat (Sign)

namespace Model

/-- The bound that enters the least activity of a row. -/
def leastBound (model : Model Float) (cell : Index × Float) : Float :=
  if cell.2 < 0 then (model.bounds cell.1).2 else (model.bounds cell.1).1

/-- The bound that enters the greatest activity of a row. -/
def greatestBound (model : Model Float) (cell : Index × Float) : Float :=
  if cell.2 < 0 then (model.bounds cell.1).1 else (model.bounds cell.1).2

/-- Every activity by which a constraint could be found to be violated has an
infinite bound of one variable in it. -/
def Unbounded (model : Model Float) (cell : Index × Float) : Relation → Prop
  | .atMost => (model.leastBound cell).isInf = true
  | .atLeast => (model.greatestBound cell).isInf = true
  | .equal => (model.leastBound cell).isInf = true ∧
      (model.greatestBound cell).isInf = true
  | .affine => False

/-- A variable is fixed at an infinite number, and this carries the activity of a
constraint past its right hand side. -/
structure Jammed (model : Model Float) (data : ConstraintRecord Float)
    (first second : Assignment) (cell : Index × Float) : Prop where
  occurs : (data.row.coefficient first.index == 0) = false
  otherOccurs : (data.row.coefficient second.index == 0) = false
  fixed : (model.bounds cell.1).1 = (model.bounds cell.1).2
  past :
    (data.relation = .atMost ∨ data.relation = .equal) ∧
        model.leastActivity data.row first second = Scalar.infinity ∧
        -data.row.constant + Scalar.tolerance < Scalar.infinity ∨
      (data.relation = .atLeast ∨ data.relation = .equal) ∧
        model.greatestActivity data.row first second = -Scalar.infinity ∧
        -Scalar.infinity < -data.row.constant - Scalar.tolerance

variable {model : Model Float} {cell : Index × Float}

section Contributions

/-- Where the bound that enters the least activity is infinite, the least
contribution is beyond the negative side, unless the variable is fixed. -/
theorem leastOf_beyond (ordered : (model.bounds cell.1).1 ≤ (model.bounds cell.1).2)
    (infinite : (model.leastBound cell).isInf = true) :
    Double.Beyond .negative (model.leastOf cell) ∨
      Double.Beyond .positive (model.leastOf cell) ∧
        (model.bounds cell.1).1 = (model.bounds cell.1).2 := by
  obtain ⟨sign, found⟩ := Double.isInf_iff.mp infinite
  unfold leastBound at found
  by_cases negative : cell.2 < 0
  · rw [if_pos negative] at found
    cases sign with
    | positive =>
        have product := Double.beyond_mul_of_neg negative found
        exact .inl (Double.beyond_smaller (.inr product))
    | negative =>
        have lower := Double.infinity_of_ge found ordered
        have product := Double.beyond_mul_of_neg negative found
        have lowerProduct := Double.beyond_mul_of_neg negative lower
        exact .inr ⟨lowerProduct.smaller product, Double.eq_of_infinity lower found⟩
  · rw [if_neg negative] at found
    cases sign with
    | negative =>
        have product := Double.beyond_mul_of_not_neg negative found
        exact .inl (Double.beyond_smaller (.inl product))
    | positive =>
        have upper := Double.infinity_of_le found ordered
        have product := Double.beyond_mul_of_not_neg negative found
        have upperProduct := Double.beyond_mul_of_not_neg negative upper
        exact .inr ⟨product.smaller upperProduct, Double.eq_of_infinity found upper⟩

theorem greatestOf_beyond (ordered : (model.bounds cell.1).1 ≤ (model.bounds cell.1).2)
    (infinite : (model.greatestBound cell).isInf = true) :
    Double.Beyond .positive (model.greatestOf cell) ∨
      Double.Beyond .negative (model.greatestOf cell) ∧
        (model.bounds cell.1).1 = (model.bounds cell.1).2 := by
  obtain ⟨sign, found⟩ := Double.isInf_iff.mp infinite
  unfold greatestBound at found
  by_cases negative : cell.2 < 0
  · rw [if_pos negative] at found
    cases sign with
    | negative =>
        have product := Double.beyond_mul_of_neg negative found
        exact .inl (Double.beyond_larger (.inl product))
    | positive =>
        have upper := Double.infinity_of_le found ordered
        have product := Double.beyond_mul_of_neg negative found
        have upperProduct := Double.beyond_mul_of_neg negative upper
        exact .inr ⟨product.larger upperProduct, Double.eq_of_infinity found upper⟩
  · rw [if_neg negative] at found
    cases sign with
    | positive =>
        have product := Double.beyond_mul_of_not_neg negative found
        exact .inl (Double.beyond_larger (.inr product))
    | negative =>
        have lower := Double.infinity_of_ge found ordered
        have product := Double.beyond_mul_of_not_neg negative found
        have lowerProduct := Double.beyond_mul_of_not_neg negative lower
        exact .inr ⟨lowerProduct.larger product, Double.eq_of_infinity lower found⟩

end Contributions

section Activities

variable {row : Row Float} {first second : Assignment} {bound : Float}

theorem lt_leastActivity_iff (free : cell ∈ freeCells row first second)
    (ordered : (model.bounds cell.1).1 ≤ (model.bounds cell.1).2)
    (infinite : (model.leastBound cell).isInf = true) :
    bound < model.leastActivity row first second ↔
      (model.bounds cell.1).1 = (model.bounds cell.1).2 ∧
        model.leastActivity row first second = Scalar.infinity ∧
        bound < Scalar.infinity := by
  rcases leastOf_beyond ordered infinite with beyond | ⟨beyond, fixed⟩
  · have total : Double.Beyond .negative (model.leastActivity row first second) :=
      Double.beyond_total free beyond _
    refine iff_of_false (Double.not_lt_of_beyond total) ?_
    rintro ⟨_, same, below⟩
    rw [← same] at below
    exact Double.not_lt_of_beyond total below
  · have total : Double.Beyond .positive (model.leastActivity row first second) :=
      Double.beyond_total free beyond _
    rw [Double.lt_iff_of_beyond total]
    exact ⟨fun above => ⟨fixed, above⟩, And.right⟩

theorem greatestActivity_lt_iff (free : cell ∈ freeCells row first second)
    (ordered : (model.bounds cell.1).1 ≤ (model.bounds cell.1).2)
    (infinite : (model.greatestBound cell).isInf = true) :
    model.greatestActivity row first second < bound ↔
      (model.bounds cell.1).1 = (model.bounds cell.1).2 ∧
        model.greatestActivity row first second = -Scalar.infinity ∧
        -Scalar.infinity < bound := by
  rcases greatestOf_beyond ordered infinite with beyond | ⟨beyond, fixed⟩
  · have total : Double.Beyond .positive (model.greatestActivity row first second) :=
      Double.beyond_total free beyond _
    refine iff_of_false (Double.not_gt_of_beyond total) ?_
    rintro ⟨_, same, below⟩
    rw [← same] at below
    exact Double.not_gt_of_beyond total below
  · have total : Double.Beyond .negative (model.greatestActivity row first second) :=
      Double.beyond_total free beyond _
    rw [Double.gt_iff_of_beyond total]
    exact ⟨fun below => ⟨fixed, below⟩, And.right⟩

end Activities

/-- A constraint over an unbounded variable excludes two assignments exactly if that
variable is fixed at infinity and carries the activity past the right hand side. -/
theorem excludes_iff_of_unbounded {data : ConstraintRecord Float}
    {first second : Assignment}
    (ordered : (model.bounds cell.1).1 ≤ (model.bounds cell.1).2)
    (free : cell ∈ freeCells data.row first second)
    (unbounded : model.Unbounded cell data.relation) :
    model.excludes data first second = true ↔ model.Jammed data first second cell := by
  unfold excludes unreachable
  by_cases absent : (data.row.coefficient first.index == 0 ||
      data.row.coefficient second.index == 0) = true
  · rw [if_pos absent]
    refine iff_of_false nofun ?_
    rintro ⟨occurs, otherOccurs, _, _⟩
    rw [occurs, otherOccurs] at absent
    cases absent
  · rw [if_neg absent]
    obtain ⟨occurs, otherOccurs⟩ := Bool.or_eq_false_iff.mp (Bool.not_eq_true _ ▸ absent)
    cases relation : data.relation with
    | affine =>
        rw [relation] at unbounded
        exact unbounded.elim
    | atMost =>
        rw [relation] at unbounded
        rw [decide_eq_true_iff, lt_leastActivity_iff free ordered unbounded]
        constructor
        · rintro ⟨fixed, above⟩
          exact ⟨occurs, otherOccurs, fixed, .inl ⟨.inl relation, above⟩⟩
        · rintro ⟨_, _, fixed, ⟨_, above⟩ | ⟨related, _⟩⟩
          · exact ⟨fixed, above⟩
          · simp [relation] at related
    | atLeast =>
        rw [relation] at unbounded
        rw [decide_eq_true_iff, greatestActivity_lt_iff free ordered unbounded]
        constructor
        · rintro ⟨fixed, below⟩
          exact ⟨occurs, otherOccurs, fixed, .inr ⟨.inl relation, below⟩⟩
        · rintro ⟨_, _, fixed, ⟨related, _⟩ | ⟨_, below⟩⟩
          · simp [relation] at related
          · exact ⟨fixed, below⟩
    | equal =>
        rw [relation] at unbounded
        obtain ⟨least, greatest⟩ := unbounded
        rw [Bool.or_eq_true, decide_eq_true_iff, decide_eq_true_iff,
          lt_leastActivity_iff free ordered least,
          greatestActivity_lt_iff free ordered greatest]
        constructor
        · rintro (⟨fixed, above⟩ | ⟨fixed, below⟩)
          · exact ⟨occurs, otherOccurs, fixed, .inl ⟨.inr relation, above⟩⟩
          · exact ⟨occurs, otherOccurs, fixed, .inr ⟨.inr relation, below⟩⟩
        · rintro ⟨_, _, fixed, ⟨_, above⟩ | ⟨_, below⟩⟩
          · exact .inl ⟨fixed, above⟩
          · exact .inr ⟨fixed, below⟩

end Model

namespace Workspace

/-- Whatever a caller does who does not write to the tables without asking: a
constraint over an unbounded variable makes two assignments of other variables
conflict only if the bounds of that variable are one and the same infinite number. -/
theorem excludes_iff_jammed {steps : List (Step Float)}
    (asking : ∀ step ∈ steps, step.asks = true) (reference : ModelRef)
    {data : ConstraintRecord Float} {first second : Assignment} {cell : Index × Float}
    (free : cell ∈ Model.freeCells data.row first second)
    (unbounded : ((reached steps).model reference).Unbounded cell data.relation) :
    (((reached steps).model reference).excludes data first second = true ↔
      ((reached steps).model reference).Jammed data first second cell) ∧
    ((((reached steps).model reference).bounds cell.1).1 ≠
        (((reached steps).model reference).bounds cell.1).2 →
      ((reached steps).model reference).excludes data first second = false) := by
  have ordered := (bounds_inOrder asking reference cell.1).2.2
  have jams := Model.excludes_iff_of_unbounded ordered free unbounded
  refine ⟨jams, ?_⟩
  intro different
  rw [← Bool.not_eq_true, jams]
  exact fun jammed => different jammed.fixed

section Resting

private def resting : ModelRef := ⟨0, "m"⟩

private def column (position : Nat) : Participant :=
  (resting.variable (.place position)).participant

/-- The sum of three variables is at most one. -/
private def sumAtMostOne : Expression Float where
  terms := ⟨[(.place 0, ⟨column 0, 1⟩), (.place 1, ⟨column 1, 1⟩),
    (.place 2, ⟨column 2, 1⟩)], by decide⟩
  constant := -1
  relation := .atMost

/-- Two of the three variables are binary, and one has the given bounds. -/
private def summed (lower upper : Float) : List (Step Float) :=
  [.createModel (.record [("name", .text "m")] 0),
    .addVariable resting (.record [("varType", .text "B")] 0),
    .addVariable resting (.record [("varType", .text "B")] 0),
    .addVariable resting (.record [("lb", .number lower), ("ub", .number upper)] 0),
    .addConstraint resting (.expression 0 sumAtMostOne) "c"]

private def summing : ConstraintRecord Float where
  name := "c"
  row := { constant := -1, cells := ⟨[(.place 0, 1), (.place 1, 1), (.place 2, 1)],
    by decide⟩ }
  relation := .atMost

private theorem third_free : (.place 2, 1) ∈
    Model.freeCells summing.row ⟨true, .place 0⟩ ⟨true, .place 1⟩ := by
  have cells : Model.freeCells summing.row ⟨true, .place 0⟩ ⟨true, .place 1⟩ =
      [(.place 2, 1)] := rfl
  rw [cells]
  exact List.mem_singleton_self _

/-- A free variable makes up for two others that are one. -/
theorem excludes_iff_jammed_free :
    ((reached (summed (-Scalar.infinity) Scalar.infinity)).model resting).constraintTable =
        [summing] ∧
      ((reached (summed (-Scalar.infinity) Scalar.infinity)).model resting).excludes
        summing ⟨true, .place 0⟩ ⟨true, .place 1⟩ = false := by
  have asking : ∀ step ∈ summed (-Scalar.infinity) Scalar.infinity, step.asks = true := by
    simp [summed, Step.asks]
  have stored : ((reached (summed (-Scalar.infinity) Scalar.infinity)).model
      resting).constraintTable = [summing] := by
    decide +kernel
  refine ⟨stored, (excludes_iff_jammed asking resting third_free ?unbounded).2 ?different⟩
  case unbounded =>
    change Float.isInf _ = true
    decide +kernel
  case different => decide +kernel

/-- Where both bounds of the third variable are infinity, the two binary variables
are in conflict. -/
theorem not_spared_at_infinity :
    (∀ step ∈ summed Scalar.infinity Scalar.infinity, step.asks = true) ∧
      ((reached (summed Scalar.infinity Scalar.infinity)).model resting).constraintTable =
        [summing] ∧
      (.place 2, 1) ∈
        Model.freeCells summing.row ⟨true, .place 0⟩ ⟨true, .place 1⟩ ∧
      ((reached (summed Scalar.infinity Scalar.infinity)).model resting).Unbounded
        (.place 2, 1) summing.relation ∧
      ((reached (summed Scalar.infinity Scalar.infinity)).model resting).excludes
        summing ⟨true, .place 0⟩ ⟨true, .place 1⟩ = true ∧
      ((reached (summed Scalar.infinity Scalar.infinity)).model resting).conflicting
        ⟨true, .place 0⟩ ⟨true, .place 1⟩ = true := by
  refine ⟨by simp [summed, Step.asks], by decide +kernel, third_free, ?unbounded,
    by decide +kernel, by decide +kernel⟩
  case unbounded =>
    change Float.isInf _ = true
    decide +kernel

end Resting

end Workspace

end LinearProgram
