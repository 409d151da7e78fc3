import LinearProgram.Proofs.Model.SolutionHistory
import LinearProgram.Scalar.Double

/-!
# What is read from a solution

A model that keeps track of its solution answers every question about it: each
variable has a value and each constraint a slack while a solution is held, and
nothing is known as soon as a change discards it.
-/

namespace LinearProgram

variable {α : Type} [Scalar α]

/-- The value is a whole number. -/
def Value.IsWhole (value : Value α) (whole : Nat) : Prop :=
  ∃ number, value = .number number ∧ Scalar.rational? number = some (whole : Rat)

theorem Scalar.natural?_eq_some_iff {value : α} {whole : Nat} :
    Scalar.natural? value = some whole ↔
      Scalar.rational? value = some (whole : Rat) := by
  unfold Scalar.natural?
  cases exact : Scalar.rational? value with
  | none => simp
  | some number =>
      constructor
      · intro found
        simp only [Option.bind_eq_bind, Option.bind_some,
          Option.ite_none_right_eq_some, Option.some.injEq] at found
        obtain ⟨⟨integral, positive⟩, rfl⟩ := found
        congr 1
        apply Rat.ext
        · simp [Int.toNat_of_nonneg positive]
        · simp [integral]
      · intro found
        cases found
        simp only [Option.bind_eq_bind, Option.bind_some, Rat.den_natCast,
          Rat.num_natCast, Int.toNat_natCast, true_and]
        exact if_pos (Int.natCast_nonneg whole)

namespace Model

variable {model : Model α} {data : SolutionData α}

/-- A solution that is held, and all that can be read of it. -/
structure Holds (model : Model α) (data : SolutionData α) : Prop
    extends model.Fits data where
  value_defined : ∀ index position, index.position? = some position →
    position < model.columnCount → (model.value index).isSome = true
  slack_defined : ∀ index position, index.position? = some position →
    position < model.rowCount → (model.slack index).isSome = true
  numbered_iff : ∀ index position number, index.position? = some position →
    position < model.columnCount →
      ((model.numberedValue index number).isSome = true ↔
        ∃ whole, number.IsWhole whole ∧ whole < model.solutionCount)

/-- Nothing is known of a solution. -/
structure Unsolved (model : Model α) : Prop where
  value : ∀ index, model.value index = none
  numbered : ∀ index number, model.numberedValue index number = none
  slack : ∀ index, model.slack index = none
  objectiveValue : model.objectiveValue = none
  reducedCost : ∀ index, model.reducedCost index = none
  dual : ∀ index, model.dual index = none
  solutionCount : model.solutionCount = 0
  status : model.status = .loaded

omit [Scalar α] in
private theorem get?_isSome {index : Index} {position : Nat} {values : List α}
    (stated : index.position? = some position)
    (inside : position < values.length) : (index.get? values).isSome = true := by
  unfold Index.get?
  rw [stated]
  simpa using inside

private theorem pooledValue_isSome_iff {index : Index} {position : Nat}
    {number : Value α} (held : model.solution = some data)
    (fits : model.Fits data) (stated : index.position? = some position)
    (inside : position < model.columnCount) :
    (model.pooledValue index number).isSome = true ↔
      ∃ whole, number.IsWhole whole ∧ whole < model.solutionCount := by
  have rows : ∀ values ∈ data.pool.getD [data.values],
      (index.get? values).isSome = true := by
    intro values membership
    apply get?_isSome stated
    cases pool : data.pool with
    | none =>
        rw [pool] at membership
        rw [List.mem_singleton.mp membership, fits.values]
        exact inside
    | some entries =>
        rw [pool] at membership
        rw [fits.pool entries pool values membership]
        exact inside
  have count : model.solutionCount = (data.pool.getD [data.values]).length := by
    unfold solutionCount
    rw [held]
    cases pool : data.pool <;> simp [pool]
  rw [count]
  unfold pooledValue
  rw [held]
  cases number with
  | number amount =>
      change ((Scalar.natural? amount).bind (fun place =>
        ((data.pool.getD [data.values])[place]?).bind index.get?)).isSome = true ↔ _
      constructor
      · intro defined
        cases found : Scalar.natural? amount with
        | none =>
            rw [found] at defined
            cases defined
        | some whole =>
            rw [found, Option.bind_some] at defined
            refine ⟨whole, ⟨amount, rfl, Scalar.natural?_eq_some_iff.mp found⟩, ?_⟩
            apply Nat.lt_of_not_le
            intro beyond
            rw [List.getElem?_eq_none beyond] at defined
            cases defined
      · rintro ⟨whole, ⟨given, same, exact⟩, below⟩
        cases same
        rw [Scalar.natural?_eq_some_iff.mpr exact, Option.bind_some,
          List.getElem?_eq_getElem below, Option.bind_some]
        exact rows _ (List.getElem_mem below)
  | _ => simp [Value.IsWhole]

/-- Whatever is asked of a solution that is held has an answer. -/
theorem holds_of_consistent (consistent : model.Consistent)
    (held : model.solution = some data) : model.Holds data := by
  have fits := consistent.fits data held
  refine ⟨fits, ?_, ?_, ?_⟩
  · intro index position stated inside
    unfold value
    rw [held]
    exact get?_isSome stated (by rw [fits.values]; exact inside)
  · intro index position stated inside
    unfold slack
    rw [held]
    rfl
  · intro index position number stated inside
    have status : model.status.hasSolution = true := by
      rw [hasSolution_iff]
      apply consistent.held_iff.mp
      rw [held]
      rfl
    unfold numberedValue
    rw [if_pos status]
    exact pooledValue_isSome_iff held fits stated inside

/-- A model without a solution has no answer to any question about one. -/
theorem Cleared.unsolved (cleared : model.Cleared) : model.Unsolved := by
  obtain ⟨none, status⟩ := cleared
  constructor
  case status => exact status
  case numbered =>
    intro index number
    unfold numberedValue
    rw [status]
    rfl
  case reducedCost =>
    intro index
    unfold reducedCost
    rw [none]
    split <;> rfl
  case dual =>
    intro index
    unfold dual
    rw [none]
    split <;> rfl
  case value => simp [value, none]
  case slack => simp [slack, none]
  case objectiveValue => simp [objectiveValue, none]
  case solutionCount => simp [solutionCount, none]

/-- In every state, a solution is held exactly while the status is one with
solutions.  It fits the tables, was loaded last, and nothing that bears on it
was accepted since; all that can be asked of it has an answer.  A load that fits
is held as it was read, and one that does not fit ends in an error.  A change that
bears on the solution leaves nothing known.  A new name and a conflict leave it. -/
theorem solution_current (reference : ModelRef) (direction : Direction)
    (changes : List (Change α)) :
    ((reached reference direction changes).solution.isSome = true ↔
      (reached reference direction changes).status = .optimal ∨
        (reached reference direction changes).status = .feasible) ∧
    (∀ data, (reached reference direction changes).solution = some data →
      (reached reference direction changes).Holds data ∧
        LastLoaded reference direction changes data) ∧
    (∀ given data, SolutionData.read.require "solution" given = .ok data →
      (reached reference direction changes).Loading given data) ∧
    (∀ change, (reached reference direction changes).Succeeds change →
      change.loads = false → change.keepsSolution = false →
        ((reached reference direction changes).after change).Unsolved) ∧
    (∀ change : Change α, change.keepsSolution = true →
      ((reached reference direction changes).after change).solution =
          (reached reference direction changes).solution ∧
        ((reached reference direction changes).after change).status =
          (reached reference direction changes).status) := by
  have tracked := tracked_reached reference direction changes
  refine ⟨tracked.consistent.held_iff, ?_, fun _ _ => loading_of_read, ?_, ?_⟩
  · intro data held
    exact ⟨holds_of_consistent tracked.consistent held, tracked.loaded data held⟩
  · intro change success notLoading notKeeping
    obtain ⟨write, accepts, written⟩ := exists_write_of_succeeds success
    rw [written]
    exact (accepts.cleared notLoading notKeeping).unsolved
  · intro change keeping
    have alike := alike_after (reached reference direction changes) keeping
    exact ⟨alike.solution, alike.status⟩

/-- A loaded solution is held until the next bound is written. -/
example :
    let changes : List (Change Float) := [.addVariable .missing,
      .loadSolution (.record [("status", .number 0),
        ("x", .list [.number 1] 1)] 2)]
    (reached ⟨0, "m"⟩ .minimize changes).solution.isSome = true ∧
      (reached ⟨0, "m"⟩ .minimize (changes ++
        [.storeLower (.place 0) 1])).solution.isSome = false :=
  ⟨rfl, rfl⟩

end Model

end LinearProgram
