import LinearProgram.Proofs.Heap.Makings

/-!
# Isolation of expressions

Expressions are made and changed in any order, with each of them as an operand
any number of times.  A change in place that is refused leaves all of them as
they were, and one that is accepted leaves all but the one that it was meant for.
Nothing is ever changed by making something of it, so a result and its operands
stay apart for good.
-/

namespace LinearProgram.Heap

variable {α : Type} [Scalar α] {heap : Heap α}

/-- An expression is made, or one is changed in place. -/
inductive Step (α : Type) [Scalar α] where
  | make (outlook : Outlook α) (making : Making α)
  | edit (outlook : Outlook α) (number : Nat) (edit : Expression.Edit α)

/-- The object that a step is meant to change. -/
def Step.target? : Step α → Option Nat
  | .make _ _ => none
  | .edit _ number _ => some number

/-- The heap after a step, whether that succeeded or was refused. -/
def after (heap : Heap α) : Step α → Heap α
  | .make outlook making =>
    match make outlook making heap with
    | .ok _ changed | .error _ changed => changed
  | .edit outlook number edit =>
    match Heap.edit outlook number edit heap with
    | .ok _ changed | .error _ changed => changed

/-- The heap after several steps. -/
def run (heap : Heap α) (steps : List (Step α)) : Heap α := steps.foldl after heap

/-- What an empty heap becomes by steps. -/
def reached (steps : List (Step α)) : Heap α := run {} steps

section Steps

variable {outlook : Outlook α} {number : Nat}

theorem keeps_make (separate : heap.Separate) (making : Making α) :
    Keeps (fun _ => True) heap (heap.after (.make outlook making)) := by
  have realizes : Realizes outlook heap _ (make outlook making) _ :=
    realizes_make separate making
  obtain ⟨outcome, yields, _⟩ := realizes
  cases yields with
  | ok success made =>
      simp only [after, success]
      exact made.keeps
  | error failure keeps =>
      simp only [after, failure]
      exact keeps

theorem exists_made {making : Making α} {final : Heap α} (separate : heap.Separate)
    (success : make outlook making heap = .ok number final) :
    ∃ expression, Made outlook heap number expression final := by
  have realizes : Realizes outlook heap _ (make outlook making) _ :=
    realizes_make separate making
  obtain ⟨outcome, yields, _⟩ := realizes
  cases yields with
  | ok given made =>
      rw [success] at given
      cases given
      exact ⟨_, made⟩
  | error failure keeps =>
      rw [success] at failure
      cases failure

theorem keeps_edit (separate : heap.Separate) (edit : Expression.Edit α) :
    Keeps (· ≠ number) heap (heap.after (.edit outlook number edit)) := by
  obtain ⟨outcome, follows⟩ : ∃ outcome,
      Follows outlook heap number (Heap.edit outlook number edit) outcome :=
    ⟨_, follows_edit separate edit⟩
  cases follows with
  | ok success keeps holds =>
      simp only [after, success]
      exact keeps
  | error failure keeps =>
      simp only [after, failure]
      exact keeps.mono (fun _ _ => trivial)

/-- A change in place that is refused is refused before any object is touched. -/
theorem keeps_of_refused {edit : Expression.Edit α} {reason : Error α}
    {final : Heap α} (separate : heap.Separate)
    (refused : Heap.edit outlook number edit heap = .error reason final) :
    Keeps (fun _ => True) heap final := by
  obtain ⟨outcome, follows⟩ : ∃ outcome,
      Follows outlook heap number (Heap.edit outlook number edit) outcome :=
    ⟨_, follows_edit separate edit⟩
  cases follows with
  | ok success keeps holds =>
      rw [refused] at success
      cases success
  | error failure keeps =>
      rw [refused] at failure
      cases failure
      exact keeps

theorem keeps_after {object : Nat} (separate : heap.Separate) {step : Step α}
    (elsewhere : step.target? ≠ some object) :
    Keeps (· = object) heap (heap.after step) := by
  cases step with
  | make outlook making =>
      exact (keeps_make separate making).mono (fun _ _ => trivial)
  | edit outlook number edit =>
      apply (keeps_edit separate edit).mono
      rintro other rfl same
      exact elsewhere (congrArg some same.symm)

end Steps

section Runs

theorem keeps_run {object : Nat} (separate : heap.Separate)
    {later : List (Step α)}
    (elsewhere : ∀ step ∈ later, step.target? ≠ some object) :
    Keeps (· = object) heap (heap.run later) := by
  induction later generalizing heap with
  | nil => exact .refl separate
  | cons step rest induction =>
      have first : Keeps (· = object) heap (heap.after step) :=
        keeps_after separate (elsewhere step List.mem_cons_self)
      apply first.trans (induction first.separate _)
      · exact fun _ _ same => same
      · intro other membership
        exact elsewhere other (List.mem_cons_of_mem _ membership)

omit [Scalar α] in
theorem separate_empty : ({} : Heap α).Separate where
  stored found := by cases found
  apart found := by cases found

theorem separate_run (separate : heap.Separate) (steps : List (Step α)) :
    (heap.run steps).Separate := by
  induction steps generalizing heap with
  | nil => exact separate
  | cons step rest induction =>
      apply induction
      cases step with
      | make outlook making => exact (keeps_make separate making).separate
      | edit outlook number edit => exact (keeps_edit separate edit).separate

theorem separate_reached (steps : List (Step α)) :
    (reached steps).Separate :=
  separate_run separate_empty steps

/-- Whatever was made and changed before: a change in place that is refused leaves
every expression with its terms, their order, its constant and its relation.
Making an expression of others leaves all of them, whether it succeeds or not.  And
from then on neither the result nor an operand changes but by a change of its own. -/
theorem isolated (steps : List (Step α)) :
    (∀ outlook number edit reason final,
      Heap.edit outlook number edit (reached steps) = .error reason final →
        ∀ object < (reached steps).size,
          final.read? object = (reached steps).read? object) ∧
    (∀ outlook making, ∀ object < (reached steps).size,
      ((reached steps).after (.make outlook making)).read? object =
        (reached steps).read? object) ∧
    (∀ outlook making result made,
      make outlook making (reached steps) = .ok result made →
        (reached steps).read? result = none ∧ (made.read? result).isSome = true ∧
        ∀ later : List (Step α),
          ((∀ step ∈ later, step.target? ≠ some result) →
            (made.run later).read? result = made.read? result) ∧
          ∀ operand < (reached steps).size,
            (∀ step ∈ later, step.target? ≠ some operand) →
              (made.run later).read? operand =
                (reached steps).read? operand) := by
  have separate := separate_reached steps
  refine ⟨?refused, ?making, ?later⟩
  case refused =>
    intro outlook number edit reason final refused object present
    exact (keeps_of_refused separate refused).same object present trivial
  case making =>
    intro outlook making object present
    exact (keeps_make separate making).same object present trivial
  case later =>
    intro outlook making result final success
    obtain ⟨expression, made⟩ := exists_made separate success
    refine ⟨read?_of_size_le made.fresh, ?present, ?apart⟩
    case present =>
      obtain ⟨body, found⟩ := exists_body made.present
      rw [read?_of_body found]
      rfl
    case apart =>
      intro later
      constructor
      · intro elsewhere
        exact (keeps_run made.keeps.separate elsewhere).same result made.present rfl
      · intro operand present elsewhere
        have still := Nat.lt_of_lt_of_le present made.keeps.growth
        have first := made.keeps.same operand present trivial
        have rest := (keeps_run made.keeps.separate elsewhere).same operand still rfl
        exact rest.trans first

end Runs

end LinearProgram.Heap
