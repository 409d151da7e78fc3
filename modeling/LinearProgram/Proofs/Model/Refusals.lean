import LinearProgram.Proofs.Model.SolutionHistory
import LinearProgram.Scalar.Double

/-!
# Refused changes

A change that is refused leaves the model as it was: its tables with all names
and cells, the objective, the conflicts and the solution.  There is one
exception.  Data of a solution that can be read but are of a wrong size take the
solution before with them, and the status says that there was an error.
-/

namespace LinearProgram.Model

variable {α : Type} [Scalar α] {model : Model α} {change : Change α}

/-- The change loads a solution that can be read, but has too many or too few
values. -/
def Misfits (model : Model α) (change : Change α) : Prop :=
  ∃ given data, change = .loadSolution given ∧
    SolutionData.read.require "solution" given = .ok data ∧
    data.status.hasSolution = true ∧ ¬model.Fits data

/-- The reasons for which a solution does not fit are sizes. -/
theorem misfits_iff :
    model.Misfits change ↔ ∃ issues, model.Misloads change issues := by
  constructor
  · rintro ⟨given, data, rfl, accepted, withValues, unfit⟩
    rw [← solutionIssues_eq_nil_iff] at unfit
    exact ⟨_, .loadSolution accepted withValues unfit⟩
  · rintro ⟨_, accepted, withValues, issues⟩
    rw [Ne, solutionIssues_eq_nil_iff] at issues
    exact ⟨_, _, rfl, accepted, withValues, issues⟩

/-- Whichever change is refused, and in whatever state, the model stays exactly
as it was, unless a solution of a wrong size was to be loaded.  Then the solution
is gone and the status tells of an error, but all else stays. -/
theorem unchanged_of_refused {error : Error α} {final : Model α}
    (refused : change.apply model = .error error final) :
    (¬model.Misfits change ∧ final = model) ∨
      (model.Misfits change ∧
        final = { model with solution := none, status := .error }) := by
  by_cases misfits : model.Misfits change
  · right
    obtain ⟨issues, misloads⟩ := misfits_iff.mp misfits
    rw [apply_of_misloads misloads] at refused
    cases refused
    exact ⟨misfits, rfl⟩
  · left
    refine ⟨misfits, ?_⟩
    rcases apply_cases model change with
      ⟨thrown, unchanged⟩ | ⟨write, _, written⟩ | misloads
    · rw [unchanged] at refused
      cases refused
      rfl
    · rw [written] at refused
      cases refused
    · exact absurd (misfits_iff.mpr misloads) misfits

section Spanning

private def ownRow (position : Nat) : Participant :=
  Constraint.participant { model := ⟨0, "m"⟩, index := .place position }

private def strangeRow : Participant :=
  Constraint.participant { model := ⟨1, "other"⟩, index := .place 0 }

/-- A model with a variable and two constraints. -/
private def spanned : Model Float :=
  reached ⟨0, "m"⟩ .minimize [.addVariable .missing,
    .storeConstraint { constant := -4, relation := .atMost } "first",
    .storeConstraint { constant := -5, relation := .atMost } "second"]

/-- A column over both constraints, with one of another model between them. -/
private def spanning : Value Float :=
  .column 1 ⟨[(ownRow 0, 1), (strangeRow, 2), (ownRow 1, 3)], by decide⟩

/-- A column with a strange constraint in its middle is refused before the cell
of its first constraint is filled. -/
theorem unchanged_spanned :
    (Change.setColumn (.place 0) spanning).apply spanned =
        .error (.foreignConstraint (.place 0)) spanned ∧
      ¬spanned.Misfits (.setColumn (.place 0) spanning) := by
  have refused : ∃ final, (Change.setColumn (.place 0) spanning).apply spanned =
      .error (.foreignConstraint (.place 0)) final := ⟨_, rfl⟩
  obtain ⟨final, refused⟩ := refused
  rcases unchanged_of_refused refused with
    ⟨fits, rfl⟩ | ⟨⟨given, data, loading, _⟩, _⟩
  · exact ⟨refused, fits⟩
  · cases loading

end Spanning

end LinearProgram.Model
