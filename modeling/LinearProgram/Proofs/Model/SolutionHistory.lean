import LinearProgram.Model.Solution
import LinearProgram.Proofs.Model.Runs

/-!
# The history of a solution

A model holds a solution exactly while its status says so.  What it holds was
loaded by the last change that had to do with solutions, fits the tables, and
no change that bears on it was accepted since.  So nothing that is read from a
solution can be stale or out of range.
-/

namespace LinearProgram.Model

variable {α : Type} [Scalar α]

/-- One value for each variable, and one dual value for each constraint. -/
structure Fits (model : Model α) (data : SolutionData α) : Prop where
  values : data.values.length = model.columnCount
  pool : ∀ pool, data.pool = some pool →
    ∀ values ∈ pool, values.length = model.columnCount
  reducedCosts : ∀ costs, data.reducedCosts = some costs →
    costs.length = model.columnCount
  duals : ∀ duals, data.duals = some duals → duals.length = model.rowCount

section Loading

omit [Scalar α] in
private theorem length_of_lengthIssues {path : List String} {expected : Nat}
    {values : List α} (clean : lengthIssues path expected values = []) :
    values.length = expected := by
  unfold lengthIssues at clean
  split at clean
  · assumption
  · cases clean

/-- A solution without issues fits the tables. -/
theorem fits_of_solutionIssues {model : Model α} {data : SolutionData α}
    (clean : model.solutionIssues data = []) : model.Fits data := by
  unfold solutionIssues at clean
  simp only [List.append_eq_nil_iff, List.flatMap_eq_nil_iff] at clean
  obtain ⟨⟨⟨values, pool⟩, costs⟩, duals⟩ := clean
  constructor
  case values => exact length_of_lengthIssues values
  case pool =>
    intro entries stated row membership
    rw [stated] at pool
    rw [← List.zipIdx_map_fst 0 entries] at membership
    obtain ⟨entry, entryMember, rfl⟩ := List.mem_map.mp membership
    exact length_of_lengthIssues (pool entry entryMember)
  case reducedCosts =>
    intro entries stated
    rw [stated] at costs
    exact length_of_lengthIssues costs
  case duals =>
    intro entries stated
    rw [stated] at duals
    exact length_of_lengthIssues duals

omit [Scalar α] in
private theorem lengthIssues_of_length {path : List String} {expected : Nat}
    {values : List α} (length : values.length = expected) :
    lengthIssues path expected values = [] :=
  if_pos length

/-- What fits the tables has no issues. -/
theorem solutionIssues_of_fits {model : Model α} {data : SolutionData α}
    (fits : model.Fits data) : model.solutionIssues data = [] := by
  unfold solutionIssues
  simp only [List.append_eq_nil_iff, List.flatMap_eq_nil_iff]
  refine ⟨⟨⟨lengthIssues_of_length fits.values, ?pool⟩, ?costs⟩, ?duals⟩
  case pool =>
    intro entry membership
    cases stated : data.pool with
    | none =>
        rw [stated] at membership
        cases membership
    | some pool =>
        rw [stated] at membership
        have listed : entry.1 ∈ pool := List.fst_mem_of_mem_zipIdx membership
        exact lengthIssues_of_length (fits.pool pool stated entry.1 listed)
  case costs =>
    cases stated : data.reducedCosts with
    | none => rfl
    | some costs =>
        exact lengthIssues_of_length (fits.reducedCosts costs stated)
  case duals =>
    cases stated : data.duals with
    | none => rfl
    | some duals => exact lengthIssues_of_length (fits.duals duals stated)

theorem solutionIssues_eq_nil_iff {model : Model α} {data : SolutionData α} :
    model.solutionIssues data = [] ↔ model.Fits data :=
  ⟨fits_of_solutionIssues, solutionIssues_of_fits⟩

/-- What comes of loading a solution, once it was read. -/
structure Loading (model : Model α) (given : Value α) (data : SolutionData α) :
    Prop where
  /-- It is held if the status is one with solutions and its sizes fit. -/
  held : data.status.hasSolution = true → model.Fits data →
    loadSolution given model =
      .ok () { model with status := data.status, solution := some data }
  /-- With another status, that is all that is kept. -/
  dropped : data.status.hasSolution = false →
    loadSolution given model =
      .ok () { model with status := data.status, solution := none }
  /-- If its sizes do not fit, every wrong size is reported, and the status tells of
  an error. -/
  refused : data.status.hasSolution = true → ¬model.Fits data →
    loadSolution given model =
      .error (.invalidOptions (.text "solution") (model.solutionIssues data))
        { model with status := .error, solution := none }

theorem loading_of_read {model : Model α} {given : Value α} {data : SolutionData α}
    (accepted : SolutionData.read.require "solution" given = .ok data) :
    model.Loading given data where
  held withValues fits :=
    apply_of_accepts (.loadSolution accepted withValues (solutionIssues_of_fits fits))
  dropped without := apply_of_accepts (.loadStatus accepted without)
  refused withValues unfit := by
    rw [← solutionIssues_eq_nil_iff] at unfit
    exact apply_of_misloads (.loadSolution accepted withValues unfit)

end Loading

section History

/-- The status tells whether there is a solution, and the solution fits. -/
structure Consistent (model : Model α) : Prop where
  held_iff : model.solution.isSome = true ↔
    model.status = .optimal ∨ model.status = .feasible
  fits : ∀ data, model.solution = some data → model.Fits data

/-- None of the changes is accepted but those that do not bear on a solution. -/
def Undisturbed (model : Model α) : List (Change α) → Prop
  | [] => True
  | change :: later =>
      (model.Succeeds change → change.keepsSolution = true) ∧
        Undisturbed (model.after change) later

/-- The data were loaded in the course of the changes, and nothing that bears
on them was accepted after that. -/
def LastLoaded (reference : ModelRef) (direction : Direction)
    (changes : List (Change α)) (data : SolutionData α) : Prop :=
  ∃ before given later, changes = before ++ .loadSolution given :: later ∧
    SolutionData.read.require "solution" given = .ok data ∧
    (reached reference direction before).Succeeds (.loadSolution given) ∧
    Undisturbed ((reached reference direction before).after
      (.loadSolution given)) later

private theorem undisturbed_concat {model : Model α} {later : List (Change α)}
    {change : Change α} (undisturbed : Undisturbed model later)
    (harmless : (model.run later).Succeeds change →
      change.keepsSolution = true) :
    Undisturbed model (later ++ [change]) := by
  induction later generalizing model with
  | nil => exact ⟨harmless, trivial⟩
  | cons first rest induction =>
      exact ⟨undisturbed.1, induction undisturbed.2 harmless⟩

variable {reference : ModelRef} {direction : Direction}
  {changes : List (Change α)} {change : Change α} {data : SolutionData α}

theorem LastLoaded.concat (loaded : LastLoaded reference direction changes data)
    (harmless : (reached reference direction changes).Succeeds change →
      change.keepsSolution = true) :
    LastLoaded reference direction (changes ++ [change]) data := by
  obtain ⟨before, given, later, rfl, accepted, success, undisturbed⟩ := loaded
  refine ⟨before, given, later ++ [change], ?_, accepted, success, ?_⟩
  · simp
  · apply undisturbed_concat undisturbed
    intro succeeds
    apply harmless
    unfold reached at succeeds ⊢
    rw [run_append, run_cons]
    exact succeeds

/-- What the solution of a model is known by, given the changes so far. -/
structure Tracked (reference : ModelRef) (direction : Direction)
    (changes : List (Change α)) (model : Model α) : Prop where
  consistent : model.Consistent
  loaded : ∀ data, model.solution = some data →
    LastLoaded reference direction changes data

private theorem consistent_of_none {model : Model α}
    (none : model.solution = none) (status : model.status.hasSolution = false) :
    model.Consistent where
  held_iff := by
    rw [none]
    constructor
    · intro held
      cases held
    · rintro (optimal | feasible)
      · rw [optimal] at status
        cases status
      · rw [feasible] at status
        cases status
  fits := by
    intro data held
    rw [none] at held
    cases held

private theorem tracked_of_none {model : Model α}
    (none : model.solution = none) (status : model.status.hasSolution = false) :
    Tracked reference direction changes model where
  consistent := consistent_of_none none status
  loaded := by
    intro data held
    rw [none] at held
    cases held

theorem Cleared.tracked {model : Model α} (cleared : model.Cleared) :
    Tracked reference direction changes model := by
  apply tracked_of_none cleared.1
  rw [cleared.2]
  rfl

/-- A change that bears on nothing leaves what is known of the solution. -/
theorem Tracked.concat_alike {changed : Model α}
    (tracked : Tracked reference direction changes
      (reached reference direction changes))
    (alike : Alike (reached reference direction changes) changed)
    (harmless : (reached reference direction changes).Succeeds change →
      change.keepsSolution = true) :
    Tracked reference direction (changes ++ [change]) changed where
  consistent := by
    constructor
    · rw [alike.solution, alike.status]
      exact tracked.consistent.held_iff
    · intro data held
      rw [alike.solution] at held
      have fits := tracked.consistent.fits data held
      constructor
      · rw [alike.columnCount]
        exact fits.values
      · rw [alike.columnCount]
        exact fits.pool
      · rw [alike.columnCount]
        exact fits.reducedCosts
      · rw [rowCount, alike.constraintTable]
        exact fits.duals
  loaded := by
    intro data held
    rw [alike.solution] at held
    exact (tracked.loaded data held).concat harmless

theorem Tracked.concat_unchanged
    (tracked : Tracked reference direction changes
      (reached reference direction changes))
    (refused : ¬(reached reference direction changes).Succeeds change) :
    Tracked reference direction (changes ++ [change])
      (reached reference direction changes) :=
  tracked.concat_alike (.refl _) (fun success => absurd success refused)

theorem hasSolution_iff (status : Status) :
    status.hasSolution = true ↔ status = .optimal ∨ status = .feasible := by
  cases status <;> simp [Status.hasSolution]

/-- A solution that was accepted fits, and is the one loaded last. -/
private theorem tracked_loading {write : Write α} (loading : change.loads = true)
    (accepts : (reached reference direction changes).Accepts change write)
    (success : (reached reference direction changes).Succeeds change) :
    Tracked reference direction (changes ++ [change])
      (write.onto (reached reference direction changes)) := by
  cases accepts with
  | loadStatus accepted without => exact tracked_of_none rfl without
  | loadSolution accepted withValues clean =>
      have fits := fits_of_solutionIssues clean
      constructor
      · constructor
        · simpa [Write.onto] using (hasSolution_iff _).mp withValues
        · intro data held
          cases held
          exact ⟨fits.values, fits.pool, fits.reducedCosts, fits.duals⟩
      · intro data held
        cases held
        exact ⟨changes, _, [], rfl, accepted, success, trivial⟩
  | _ => cases loading

/-- A model keeps track of its solution through all changes. -/
theorem tracked_reached (reference : ModelRef) (direction : Direction)
    (changes : List (Change α)) :
    Tracked reference direction changes (reached reference direction changes) := by
  induction changes using List.reverseRecOn with
  | nil => exact Cleared.tracked ⟨rfl, rfl⟩
  | append_singleton changes change tracked =>
    rw [reached_concat]
    rcases step_cases (reached reference direction changes) change with
      ⟨refused, unchanged⟩ | ⟨write, accepts, success, written⟩ | ⟨_, _, dropped⟩
    · rw [unchanged]
      exact tracked.concat_unchanged refused
    · rw [written]
      cases keeping : change.keepsSolution with
      | true =>
          exact tracked.concat_alike (accepts.alike keeping) (fun _ => keeping)
      | false =>
          cases loading : change.loads with
          | true => exact tracked_loading loading accepts success
          | false => exact (accepts.cleared loading keeping).tracked
    · rw [dropped]
      exact tracked_of_none rfl rfl

end History

end LinearProgram.Model
