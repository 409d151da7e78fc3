import LinearProgram.Proofs.Model.Writes

/-!
# Steps of a model

What an accepted change does to the solution of a model.  Nearly all changes
discard it.  The exceptions are a new name and a conflict, which do not bear on
the solution, and loading one.
-/

namespace LinearProgram.Model

variable {α : Type} [Scalar α]

/-- The state without a solution in which a model starts. -/
def Cleared (model : Model α) : Prop :=
  model.solution = none ∧ model.status = .loaded

/-- Two models differ neither in the solution nor in the rows. -/
structure Alike (first second : Model α) : Prop where
  solution : second.solution = first.solution
  status : second.status = first.status
  columnCount : second.columnCount = first.columnCount
  constraintTable : second.constraintTable = first.constraintTable

theorem Alike.refl (model : Model α) : Alike model model :=
  ⟨rfl, rfl, rfl, rfl⟩

/-- Whether a change does not bear on the solution. -/
def Change.keepsSolution : Change α → Bool
  | setName _ _ | addConflict _ _ => true
  | _ => false

variable {model : Model α} {change : Change α} {write : Write α}

theorem alike_name (index : Index) (name : String) :
    Alike model ((Write.name index name).onto model) := by
  simp only [Write.onto]
  cases model.variablePosition? index with
  | none => exact .refl model
  | some position => exact ⟨rfl, rfl, List.length_modify _ _ _, rfl⟩

/-- A new name and a conflict leave the solution and the rows. -/
theorem Accepts.alike (accepts : model.Accepts change write)
    (keeping : change.keepsSolution = true) :
    Alike model (write.onto model) := by
  cases accepts with
  | setName => exact alike_name _ _
  | addConflict => exact ⟨rfl, rfl, rfl, rfl⟩
  | _ => cases keeping

/-- Everything but a new name, a conflict and a solution discards the solution. -/
theorem Accepts.cleared (accepts : model.Accepts change write)
    (notLoading : change.loads = false)
    (notKeeping : change.keepsSolution = false) :
    (write.onto model).Cleared := by
  cases accepts with
  | setName => cases notKeeping
  | addConflict => cases notKeeping
  | loadStatus => cases notLoading
  | loadSolution => cases notLoading
  | _ => exact ⟨rfl, rfl⟩

/-- Only conflicts are written to the conflicts. -/
theorem Accepts.conflicts (accepts : model.Accepts change write)
    (other : ∀ first second, change ≠ .addConflict first second) :
    (write.onto model).conflicts = model.conflicts := by
  cases accepts with
  | setName =>
      simp only [Write.onto]
      split <;> rfl
  | addConflict => exact absurd rfl (other _ _)
  | _ => rfl

end LinearProgram.Model
