import LinearProgram.Proofs.Model.Steps
import Mathlib.Data.List.Induction

/-!
# Runs of a model

A run is a list of changes, some of which may be refused.  Every state of a
model is what some run makes of a new model, so a property of all states is
shown for the new model and for one more change.
-/

namespace LinearProgram.Model

variable {α : Type} [Scalar α]

/-- The model after a change, whether that succeeded or was refused. -/
def after (model : Model α) (change : Change α) : Model α :=
  match change.apply model with
  | .ok _ changed | .error _ changed => changed

/-- The change is accepted. -/
def Succeeds (model : Model α) (change : Change α) : Prop :=
  ∃ changed, change.apply model = .ok () changed

/-- The model after several changes. -/
def run (model : Model α) (changes : List (Change α)) : Model α :=
  changes.foldl after model

@[simp]
theorem run_nil (model : Model α) : model.run [] = model := rfl

@[simp]
theorem run_concat (model : Model α) (changes : List (Change α))
    (change : Change α) :
    model.run (changes ++ [change]) = (model.run changes).after change := by
  simp [run]

theorem run_append (model : Model α) (earlier later : List (Change α)) :
    model.run (earlier ++ later) = (model.run earlier).run later := by
  simp [run]

@[simp]
theorem run_cons (model : Model α) (change : Change α)
    (later : List (Change α)) :
    model.run (change :: later) = (model.after change).run later := rfl

/-- What a new model becomes by changes. -/
def reached (reference : ModelRef) (direction : Direction)
    (changes : List (Change α)) : Model α :=
  (new reference direction).run changes

@[simp]
theorem reached_concat (reference : ModelRef) (direction : Direction)
    (changes : List (Change α)) (change : Change α) :
    reached reference direction (changes ++ [change]) =
      (reached reference direction changes).after change :=
  run_concat _ changes change

section Events

variable {reference : ModelRef} {direction : Direction}
  {changes : List (Change α)} {change : Change α}
  {event : Model α → Change α → Prop}

/-- At some point of a run, something holds of a model and the change that it
meets. -/
def Occurs (reference : ModelRef) (direction : Direction)
    (changes : List (Change α)) (event : Model α → Change α → Prop) : Prop :=
  ∃ earlier change later, changes = earlier ++ change :: later ∧
    event (reached reference direction earlier) change

/-- At every point of a run, something holds of a model and the change that it
meets. -/
def Throughout (reference : ModelRef) (direction : Direction)
    (changes : List (Change α)) (event : Model α → Change α → Prop) : Prop :=
  ∀ earlier change later, changes = earlier ++ change :: later →
    event (reached reference direction earlier) change

/-- In every state on the way through a run, the last one included, something
holds. -/
def Always (reference : ModelRef) (direction : Direction)
    (changes : List (Change α)) (property : Model α → Prop) : Prop :=
  ∀ earlier later, changes = earlier ++ later →
    property (reached reference direction earlier)

theorem occurs_concat :
    Occurs reference direction (changes ++ [change]) event ↔
      Occurs reference direction changes event ∨
        event (reached reference direction changes) change := by
  constructor
  · rintro ⟨earlier, met, later, split, happened⟩
    rcases List.eq_nil_or_concat later with rfl | ⟨between, last, rfl⟩
    · obtain ⟨rfl, same⟩ := List.append_inj' split rfl
      cases same
      exact .inr happened
    · rw [List.concat_eq_append, ← List.cons_append, ← List.append_assoc]
        at split
      obtain ⟨rfl, _⟩ := List.append_inj' split rfl
      exact .inl ⟨earlier, met, between, rfl, happened⟩
  · rintro (⟨earlier, met, later, rfl, happened⟩ | happened)
    · exact ⟨earlier, met, later ++ [change], by simp, happened⟩
    · exact ⟨changes, change, [], rfl, happened⟩

theorem throughout_of_forall
    (always : ∀ model, ∀ change ∈ changes, event model change) :
    Throughout reference direction changes event := by
  intro earlier met later split
  apply always
  rw [split]
  exact List.mem_append_right _ List.mem_cons_self

/-- What holds throughout a run holds throughout its beginning. -/
theorem Throughout.of_append {later : List (Change α)}
    (throughout : Throughout reference direction (changes ++ later) event) :
    Throughout reference direction changes event := by
  intro earlier met between split
  subst split
  exact throughout earlier met (between ++ later) (by simp)

theorem Throughout.mono {other : Model α → Change α → Prop}
    (throughout : Throughout reference direction changes event)
    (weaker : ∀ model change, event model change → other model change) :
    Throughout reference direction changes other :=
  fun earlier met later split => weaker _ _ (throughout earlier met later split)

theorem Throughout.and {other : Model α → Change α → Prop}
    (throughout : Throughout reference direction changes event)
    (alsoOther : Throughout reference direction changes other) :
    Throughout reference direction changes
      (fun model change => event model change ∧ other model change) :=
  fun earlier met later split =>
    ⟨throughout earlier met later split, alsoOther earlier met later split⟩

theorem throughout_concat :
    Throughout reference direction (changes ++ [change]) event ↔
      Throughout reference direction changes event ∧
        event (reached reference direction changes) change := by
  constructor
  · intro throughout
    constructor
    · intro earlier met later split
      subst split
      exact throughout earlier met (later ++ [change]) (by simp)
    · exact throughout changes change [] rfl
  · intro parts earlier met later split
    obtain ⟨before, last⟩ := parts
    rcases List.eq_nil_or_concat later with rfl | ⟨between, final, rfl⟩
    · obtain ⟨rfl, same⟩ := List.append_inj' split rfl
      cases same
      exact last
    · rw [List.concat_eq_append, ← List.cons_append, ← List.append_assoc]
        at split
      obtain ⟨rfl, _⟩ := List.append_inj' split rfl
      exact before earlier met between rfl

/-- What holds of a new model, and is kept by every change that is met as it is
throughout a run, holds after the run. -/
theorem Throughout.invariant {property : Model α → Prop}
    (throughout : Throughout reference direction changes event)
    (kept : ∀ model change, event model change → property model →
      property (model.after change))
    (initial : property (new reference direction)) :
    property (reached reference direction changes) := by
  induction changes using List.reverseRecOn with
  | nil => exact initial
  | append_singleton earlier change induction =>
      obtain ⟨before, last⟩ := throughout_concat.mp throughout
      rw [reached_concat]
      exact kept _ change last (induction before)

end Events

section Outcomes

variable {model : Model α} {change : Change α}

theorem after_of_ok {changed : Model α}
    (success : change.apply model = .ok () changed) :
    model.after change = changed := by
  simp only [after, success]

theorem after_of_error {error : Error α} {changed : Model α}
    (failure : change.apply model = .error error changed) :
    model.after change = changed := by
  simp only [after, failure]

private theorem not_succeeds_of_error {error : Error α} {changed : Model α}
    (failure : change.apply model = .error error changed) :
    ¬model.Succeeds change := by
  intro succeeds
  obtain ⟨final, success⟩ := succeeds
  rw [failure] at success
  cases success

/-- A step of a run: the change is refused and nothing happens, or it is accepted
and written, or it is refused together with the solution that was there. -/
theorem step_cases (model : Model α) (change : Change α) :
    (¬model.Succeeds change ∧ model.after change = model) ∨
      (∃ write, model.Accepts change write ∧ model.Succeeds change ∧
        model.after change = write.onto model) ∨
      (¬model.Succeeds change ∧ change.loads = true ∧
        model.after change = model.withoutValues) := by
  rcases apply_cases model change with
    ⟨error, failure⟩ | ⟨write, accepts, success⟩ | ⟨issues, misloads⟩
  · exact .inl ⟨not_succeeds_of_error failure, after_of_error failure⟩
  · exact .inr (.inl ⟨write, accepts, ⟨_, success⟩, after_of_ok success⟩)
  · have failure := apply_of_misloads misloads
    have loading : change.loads = true := by
      cases misloads
      rfl
    exact .inr (.inr ⟨not_succeeds_of_error failure, loading,
      after_of_error failure⟩)

/-- What holds of a model, of what is written to it and of what remains without
its solution holds after a change. -/
theorem holds_after {property : Model α → Prop} (holds : property model)
    (written : ∀ write, model.Accepts change write →
      property (write.onto model))
    (dropped : property model.withoutValues) :
    property (model.after change) := by
  rcases step_cases model change with
    ⟨_, same⟩ | ⟨write, accepts, _, same⟩ | ⟨_, _, same⟩
  · rw [same]
    exact holds
  · rw [same]
    exact written write accepts
  · rw [same]
    exact dropped

theorem reference_onto (model : Model α) (write : Write α) :
    (write.onto model).reference = model.reference := by
  cases write with
  | name index wanted =>
      simp only [Write.onto]
      split <;> rfl
  | _ => rfl

/-- A model is called the same for good. -/
theorem reference_after (model : Model α) (change : Change α) :
    (model.after change).reference = model.reference := by
  refine @holds_after _ _ model change
    (fun changed => changed.reference = model.reference) rfl ?_ rfl
  intro write _
  exact reference_onto model write

theorem reference_reached (reference : ModelRef) (direction : Direction)
    (changes : List (Change α)) :
    (reached reference direction changes).reference = reference := by
  induction changes using List.reverseRecOn with
  | nil => rfl
  | append_singleton earlier change induction =>
      rw [reached_concat, reference_after]
      exact induction

/-- What is accepted is written. -/
theorem exists_write_of_succeeds (success : model.Succeeds change) :
    ∃ write, model.Accepts change write ∧
      model.after change = write.onto model := by
  obtain ⟨changed, outcome⟩ := success
  obtain ⟨write, accepts, rfl⟩ := apply_eq_ok_iff.mp outcome
  exact ⟨write, accepts, after_of_ok outcome⟩

/-- A new name and a conflict leave the solution and the rows. -/
theorem alike_after (model : Model α) (keeping : change.keepsSolution = true) :
    Alike model (model.after change) := by
  rcases step_cases model change with
    ⟨_, unchanged⟩ | ⟨write, accepts, _, written⟩ | ⟨_, loading, _⟩
  · rw [unchanged]
    exact .refl model
  · rw [written]
    exact accepts.alike keeping
  · cases change with
    | loadSolution => cases keeping
    | _ => cases loading

end Outcomes

end LinearProgram.Model
