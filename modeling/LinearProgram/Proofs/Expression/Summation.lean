import LinearProgram.Proofs.Expression.Addition
import LinearProgram.Proofs.Expression.Combination

/-!
# Sums of many operands

A sum takes up its operands one by one, and a coefficient that comes within the
tolerance is dropped at once, not at the end.  So signs that cancel out midway
cost a remainder, and how much is left depends on the order.

An operand that does not mention a variable leaves its coefficient alone, because
whatever is kept is large enough to be kept again.  Every other operand costs the
coefficient no more than the tolerance.  Hence the losses are bounded by the number
of operands that mention the variable, which no reordering changes.
-/

namespace LinearProgram

namespace Row

variable {start operand : Row Exact} {allowed : Index → Prop}

theorem coefficient_plusMultiple_of_absent (startRational : start.Rational allowed)
    (operandRational : operand.Rational allowed) (factor : Rat) {index : Index}
    (absent : index ∉ operand.cells.keys) :
    (start.plusMultiple operand (.finite factor)).coefficient index =
      start.coefficient index := by
  have own := startRational.coefficient_eq index
  have sum : residue start operand factor index = (start.coefficient index).toRat := by
    rw [residue, coefficient_of_absent absent, Exact.zero_eq, Exact.finite_toRat,
      mul_zero, add_zero]
  rw [coefficient_plusMultiple startRational operandRational, sum, ← own,
    startRational.within.kept_coefficient]

/-- A coefficient differs from the sum by no more than the tolerance, and by nothing
if the row that is added has no such cell. -/
theorem abs_coefficient_plusMultiple_sub_le (startRational : start.Rational allowed)
    (operandRational : operand.Rational allowed) (factor : Rat) (index : Index) :
    |((start.plusMultiple operand (.finite factor)).coefficient index).toRat -
        residue start operand factor index| ≤
      1e-12 * (if operand.cells.contains index then 1 else 0 : Nat) := by
  by_cases present : index ∈ operand.cells.keys
  · rw [if_pos (OrderedMap.contains_iff.mpr present), Nat.cast_one, mul_one,
      coefficient_plusMultiple startRational operandRational, kept_finite,
      Exact.finite_toRat]
    by_cases small : |residue start operand factor index| ≤ 1e-12
    · rw [if_pos small, zero_sub, abs_neg]
      exact small
    · rw [if_neg small, sub_self, abs_zero]
      norm_num
  · rw [if_neg (mt OrderedMap.contains_iff.mp present), Nat.cast_zero, mul_zero,
      coefficient_plusMultiple_of_absent startRational operandRational factor present,
      residue, coefficient_of_absent present, Exact.zero_eq, Exact.finite_toRat,
      mul_zero, add_zero, sub_self, abs_zero]

end Row

namespace Expression

section Operands

/-- The exact sum of the constants of operands. -/
def constantSum (operands : List (Value Exact)) : Rat :=
  (operands.map (fun operand => operand.contents.constant.toRat)).sum

/-- The exact sum of the coefficients that operands have of a variable. -/
def coefficientSum (operands : List (Value Exact)) (index : Index) : Rat :=
  (operands.map (fun operand => (operand.contents.coefficient index).toRat)).sum

/-- The number of operands that mention a variable. -/
def mentions (operands : List (Value Exact)) (index : Index) : Nat :=
  operands.countP (fun operand => operand.contents.cells.contains index)

section Cons

variable (operand : Value Exact) (operands : List (Value Exact))

theorem constantSum_cons : constantSum (operand :: operands) =
    operand.contents.constant.toRat + constantSum operands :=
  List.sum_cons

theorem coefficientSum_cons (index : Index) :
    coefficientSum (operand :: operands) index =
      (operand.contents.coefficient index).toRat + coefficientSum operands index :=
  List.sum_cons

theorem mentions_cons (index : Index) : mentions (operand :: operands) index =
    mentions operands index +
      if operand.contents.cells.contains index then 1 else 0 :=
  List.countP_cons

end Cons

variable {operands reordered : List (Value Exact)}

theorem constantSum_perm (same : operands.Perm reordered) :
    constantSum operands = constantSum reordered :=
  (same.map _).sum_eq

theorem coefficientSum_perm (same : operands.Perm reordered) (index : Index) :
    coefficientSum operands index = coefficientSum reordered index :=
  (same.map _).sum_eq

theorem mentions_perm (same : operands.Perm reordered) (index : Index) :
    mentions operands index = mentions reordered index :=
  same.countP_eq _

end Operands

/-- Numbers, variables and expressions whose variables belong to one model. -/
def OneModelOperands (reference : ModelRef) (operands : List (Value Exact)) : Prop :=
  ∀ operand ∈ operands, Operand (fun _ => True) operand ∧
    (operand.owner = .nobody ∨ operand.owner = .model reference)

/-- What operands sum up to: the exact constant, and for every variable of the model
the exact coefficient, up to the tolerance for every operand that mentions it.  A
variable whose exact coefficient exceeds the tolerance once more is there. -/
structure SumsUp (reference : ModelRef) (operands : List (Value Exact))
    (total : Expression Exact) : Prop where
  constant : total.constant = .finite (constantSum operands)
  near : ∀ handle : Variable, handle.model = reference →
    ∃ amount, total.coefficient handle.participant = .finite amount ∧
      |amount - coefficientSum operands handle.index| ≤
        1e-12 * mentions operands handle.index
  present : ∀ handle : Variable, handle.model = reference →
    1e-12 * (mentions operands handle.index + 1) <
      |coefficientSum operands handle.index| →
    total.has handle.participant = true

variable {reference : ModelRef} {expression start total other : Expression Exact}
  {operand : Value Exact} {operands reordered : List (Value Exact)}
  {admitted : Variable → Prop}

/-- A further operand of the model is never refused. -/
theorem makes_plus (sound : expression.Sound (fun handle => handle.model = reference))
    (given : Operand (fun _ => True) operand)
    (owner : operand.owner = .nobody ∨ operand.owner = .model reference) :
    Makes (fun handle => handle.model = reference) (expression.plus operand)
      (expression.contents.plusMultiple operand.contents (.finite 1)) := by
  have owned : ∀ handle : Variable, handle.model = reference →
      handle.model = reference := fun _ own => own
  cases given with
  | number amount => exact makes_addMultiple owned sound (.number amount) 1
  | @handle handle _ =>
      rcases owner with nobody | own
      · cases nobody
      · exact makes_addMultiple owned sound (.handle (Owner.model.inj own)) 1
  | @expression number added reachable =>
      have stated : added.owner? = none ∨ added.owner? = some (.model reference) := by
        rcases reachable.sound.owner_cases with ⟨_, none⟩ | ⟨_, handle, _, found⟩
        · exact .inl none
        · rw [Value.owner, found, Option.getD_some] at owner
          rcases owner with nobody | own
          · cases nobody
          · rw [found, own]
            exact .inr rfl
      exact makes_addExpression owned sound (reachable.sound.of_owner stated) 1

/-- What operands add to an expression one after the other: the exact constants, and
the exact coefficients up to the tolerance for every mention. -/
structure Adds (start : Expression Exact) (operands : List (Value Exact))
    (total : Expression Exact) : Prop where
  constant : total.contents.constant =
    .finite (start.contents.constant.toRat + constantSum operands)
  near : ∀ index, |(total.contents.coefficient index).toRat -
      ((start.contents.coefficient index).toRat + coefficientSum operands index)| ≤
    1e-12 * mentions operands index

theorem adds_nil (sound : start.Sound admitted) : start.Adds [] start := by
  constructor
  · rw [constantSum, List.map_nil, List.sum_nil, add_zero]
    exact Exact.eq_finite_of_isFinite sound.constant
  · intro index
    simp [coefficientSum, mentions]

/-- The losses of a first operand and of all others add up. -/
theorem Adds.cons {next : Expression Exact} (sound : start.Sound admitted)
    (given : Operand (fun _ => True) operand)
    (contents : next.contents =
      start.contents.plusMultiple operand.contents (.finite 1))
    (rest : next.Adds operands total) : start.Adds (operand :: operands) total := by
  have startRational : start.contents.Rational (fun _ => True) :=
    sound.rational (fun _ _ => trivial)
  have rational : operand.contents.Rational (fun _ => True) :=
    given.rational (fun _ _ => trivial)
  constructor
  · rw [rest.constant, contents,
      Row.constant_plusMultiple startRational rational, Exact.finite_toRat, one_mul,
      constantSum_cons, add_assoc]
  · intro index
    have first := Row.abs_coefficient_plusMultiple_sub_le startRational rational 1 index
    rw [← contents, Row.residue, one_mul] at first
    have others := rest.near index
    rw [coefficientSum_cons, mentions_cons, Nat.cast_add, mul_add, ← add_assoc]
    calc
      _ = |((total.contents.coefficient index).toRat -
              ((next.contents.coefficient index).toRat + coefficientSum operands index)) +
            ((next.contents.coefficient index).toRat -
              ((start.contents.coefficient index).toRat +
                (operand.contents.coefficient index).toRat))| := by
          congr 1
          ring
      _ ≤ _ := (abs_add_le _ _).trans (add_le_add others first)

/-- Adding operands of one model one after the other is never refused. -/
theorem exists_adds (sound : start.Sound (fun handle => handle.model = reference))
    (given : OneModelOperands reference operands) :
    ∃ total,
      operands.foldlM (fun sum operand => sum.plus operand) start = .ok total ∧
        total.Sound (fun handle => handle.model = reference) ∧
        start.Adds operands total := by
  induction operands generalizing start with
  | nil => exact ⟨start, rfl, sound, adds_nil sound⟩
  | cons operand rest induction =>
      obtain ⟨summand, owner⟩ := given operand List.mem_cons_self
      obtain ⟨next, added, nextSound, contents⟩ := makes_plus sound summand owner
      obtain ⟨total, summed, totalSound, adds⟩ := induction nextSound
        (fun other membership => given other (List.mem_cons_of_mem _ membership))
      refine ⟨total, ?_, totalSound, adds.cons sound summand contents⟩
      rw [List.foldlM_cons, added]
      exact summed

/-- What operands add to zero is what they sum up to. -/
theorem Adds.sumsUp (adds : (zero : Expression Exact).Adds operands total)
    (sound : total.Sound (fun handle => handle.model = reference)) :
    total.SumsUp reference operands := by
  have spans : total.Over (fun other => other.owner = .model reference) :=
    sound.terms.over (fun _ own => own)
  have rational : total.contents.Rational (fun _ => True) :=
    sound.rational (fun _ _ => trivial)
  have bound : ∀ index, |(total.contents.coefficient index).toRat -
      coefficientSum operands index| ≤ 1e-12 * mentions operands index := by
    intro index
    have near := adds.near index
    have nothing : ((zero : Expression Exact).contents.coefficient index).toRat = 0 := rfl
    rwa [nothing, zero_add] at near
  constructor
  case constant =>
    refine adds.constant.trans (congrArg Exact.finite ?_)
    exact zero_add _
  case near =>
    rintro handle rfl
    refine ⟨(total.contents.coefficient handle.index).toRat, ?_, bound handle.index⟩
    rw [← rational.coefficient_eq, coefficient_contents]
    exact coefficient_of_over spans rfl
  case present =>
    rintro handle rfl exceeds
    by_contra absent
    rw [has_of_over spans rfl, OrderedMap.contains_iff, ← keys_contents] at absent
    -- A variable that is not there would have lost more than all mentions cost.
    have near := bound handle.index
    have none : total.contents.coefficient handle.index = 0 :=
      Row.coefficient_of_absent absent
    rw [none, Exact.zero_eq, Exact.finite_toRat, zero_sub, abs_neg] at near
    linarith

theorem exists_sum (given : OneModelOperands reference operands) :
    ∃ total, sum operands = .ok total ∧ total.SumsUp reference operands := by
  obtain ⟨total, summed, sound, adds⟩ := exists_adds (zero_sound .affine) given
  exact ⟨total, summed, adds.sumsUp sound⟩

/-- Reordered operands sum up to the same. -/
theorem SumsUp.of_perm (sums : total.SumsUp reference reordered)
    (same : operands.Perm reordered) : total.SumsUp reference operands where
  constant := by
    rw [constantSum_perm same]
    exact sums.constant
  near handle own := by
    rw [coefficientSum_perm same, mentions_perm same]
    exact sums.near handle own
  present handle own := by
    rw [coefficientSum_perm same, mentions_perm same]
    exact sums.present handle own

/-- However operands of one model are ordered, their sum has the exact constant, and
each coefficient is exact up to the tolerance for every operand that mentions the
variable.  So the coefficients of two orders differ by no more than twice that. -/
theorem sum_of_operands (given : OneModelOperands reference operands) :
    ∃ total, sum operands = .ok total ∧ total.SumsUp reference operands ∧
      ∀ reordered, operands.Perm reordered →
        ∃ other, sum reordered = .ok other ∧ other.SumsUp reference operands ∧
          other.constant = total.constant ∧
          ∀ handle : Variable, handle.model = reference →
            |(other.coefficient handle.participant).toRat -
                (total.coefficient handle.participant).toRat| ≤
              2 * (1e-12 * mentions operands handle.index) := by
  obtain ⟨total, summed, sums⟩ := exists_sum given
  refine ⟨total, summed, sums, fun reordered same => ?_⟩
  obtain ⟨other, otherSummed, otherSums⟩ :=
    exists_sum (fun operand listed => given operand (same.mem_iff.mpr listed))
  have sumsToo := otherSums.of_perm same
  refine ⟨other, otherSummed, sumsToo, sumsToo.constant.trans sums.constant.symm, ?_⟩
  intro handle own
  obtain ⟨amount, coefficient, near⟩ := sums.near handle own
  obtain ⟨otherAmount, otherCoefficient, otherNear⟩ := sumsToo.near handle own
  rw [coefficient, otherCoefficient, Exact.finite_toRat, Exact.finite_toRat, two_mul]
  rw [abs_sub_comm] at near
  exact (abs_sub_le _ _ _).trans (add_le_add otherNear near)

section Cancelling

private def weakened : Variable := { model := ⟨0, "m"⟩, index := .place 0 }

/-- Minus the variable, up to half of the tolerance. -/
private def weakening : Expression Exact where
  terms := ⟨[(.place 0, ⟨weakened.participant, .finite (5e-13 - 1)⟩)], by decide⟩
  constant := .finite 0

private theorem oneModel_weakened : OneModelOperands ⟨0, "m"⟩
    [.handle weakened, .expression 0 weakening, .handle weakened] := by
  have scaled : Operator.multiply.apply (.handle weakened)
      (.number (.finite (5e-13 - 1))) = .ok weakening :=
    Check.ok_of_toOption (by decide +kernel)
  have reachable : weakening.Reachable (fun _ => True) := by
    refine .applied (fun _ _ => trivial) ?_ (fun _ _ => trivial) ?_ scaled
    all_goals
      intro number other same
      cases same
  intro operand listed
  simp only [List.mem_cons, List.not_mem_nil, or_false] at listed
  rcases listed with rfl | rfl | rfl
  · exact ⟨.handle trivial, .inr rfl⟩
  · exact ⟨.expression reachable, .inr rfl⟩
  · exact ⟨.handle trivial, .inr rfl⟩

/-- Added in between, minus a variable leaves half of the tolerance, which is dropped;
added at the end, it is not.  The variable is there in either case. -/
theorem sum_of_operands_weakened : ∃ total other,
    sum [.handle weakened, .expression 0 weakening, .handle weakened] = .ok total ∧
      sum [.handle weakened, .handle weakened, .expression 0 weakening] = .ok other ∧
      total.has weakened.participant = true ∧ other.has weakened.participant = true ∧
      |(other.coefficient weakened.participant).toRat -
          (total.coefficient weakened.participant).toRat| ≤ 6e-12 := by
  obtain ⟨total, summed, sums, orders⟩ := sum_of_operands oneModel_weakened
  obtain ⟨other, otherSummed, otherSums, _, bound⟩ :=
    orders [.handle weakened, .handle weakened, .expression 0 weakening]
      ((List.Perm.swap _ _ _).cons _)
  have exceeds : 1e-12 * (mentions [.handle weakened, .expression 0 weakening,
        .handle weakened] weakened.index + 1 : Rat) <
      |coefficientSum [.handle weakened, .expression 0 weakening, .handle weakened]
        weakened.index| := by
    decide +kernel
  refine ⟨total, other, summed, otherSummed, sums.present weakened rfl exceeds,
    otherSums.present weakened rfl exceeds, (bound weakened rfl).trans ?_⟩
  decide +kernel

end Cancelling

end Expression

end LinearProgram
