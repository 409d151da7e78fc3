import LinearProgram.Model.Conflict
import LinearProgram.Proofs.Model.SolutionHistory

/-!
# The history of recorded conflicts

A key is among the conflicts of a model exactly if a pair of literals with that
key was accepted at some point of the run.  Nothing ever takes a key away.
-/

namespace LinearProgram.Model

variable {α : Type} [Scalar α]

/-- The change records a pair of literals with a key, and the model accepts. -/
def RecordsKey (key : String) (model : Model α) (change : Change α) : Prop :=
  ∃ first second, change = .addConflict first second ∧
    model.Succeeds change ∧
    first.assignment.pairKey α second.assignment = key

private theorem conflicts_onto_iff {model : Model α} {change : Change α}
    {write : Write α} (accepts : model.Accepts change write) (key : String) :
    key ∈ (write.onto model).conflicts ↔
      key ∈ model.conflicts ∨
        ∃ first second, change = .addConflict first second ∧
          first.assignment.pairKey α second.assignment = key := by
  by_cases records : ∃ first second, change = .addConflict first second
  · obtain ⟨first, second, rfl⟩ := records
    cases accepts
    simp only [Write.onto, List.mem_insert_iff]
    constructor
    · rintro (rfl | present)
      · exact .inr ⟨first, second, rfl, rfl⟩
      · exact .inl present
    · rintro (present | ⟨_, _, same, rfl⟩)
      · exact .inr present
      · cases same
        exact .inl rfl
  · rw [accepts.conflicts (fun first second same => records ⟨first, second, same⟩)]
    constructor
    · exact .inl
    · rintro (present | ⟨first, second, same, _⟩)
      · exact present
      · exact absurd ⟨first, second, same⟩ records

/-- A change adds to the conflicts the key that it records. -/
theorem mem_conflicts_after (model : Model α) (change : Change α)
    (key : String) :
    key ∈ (model.after change).conflicts ↔
      key ∈ model.conflicts ∨ model.RecordsKey key change := by
  rcases step_cases model change with
    ⟨refused, unchanged⟩ | ⟨write, accepts, success, written⟩ |
      ⟨refused, _, dropped⟩
  · rw [unchanged]
    simp [RecordsKey, refused]
  · rw [written, conflicts_onto_iff accepts]
    simp [RecordsKey, success]
  · rw [dropped]
    simp [RecordsKey, refused, withoutValues]

/-- The conflicts are the keys that were recorded in the course of the run. -/
theorem mem_conflicts_reached_iff (reference : ModelRef) (direction : Direction)
    (changes : List (Change α)) (key : String) :
    key ∈ (reached reference direction changes).conflicts ↔
      Occurs reference direction changes (RecordsKey key) := by
  induction changes using List.reverseRecOn with
  | nil =>
      constructor
      · intro present
        cases present
      · rintro ⟨earlier, change, later, split, _⟩
        simp at split
  | append_singleton earlier change induction =>
      rw [reached_concat, mem_conflicts_after, induction, occurs_concat]

end LinearProgram.Model
