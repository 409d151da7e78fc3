import LinearProgram.Handle

/-!
# Columns

The entries of one variable in the constraint matrix, as a caller gives them: constraints, or
whatever takes their place, paired with coefficients.  A constraint may be named more than once; its
coefficients then add up when the column is stored.
-/

namespace LinearProgram

/-- Constraints with finite coefficients, in the order given. -/
structure Column (α : Type) [Scalar α] where
  entries : List (Participant × α)
  finite : ∀ entry ∈ entries, Scalar.isFinite entry.2 = true

namespace Column

variable {α : Type} [Scalar α]

def empty : Column α := ⟨[], by simp⟩

instance : Inhabited (Column α) := ⟨empty⟩

/-- Replace what takes part. -/
def map (replace : Participant → Participant) (column : Column α) : Column α :=
  ⟨column.entries.map (fun entry => (replace entry.1, entry.2)), by
    intro entry member
    obtain ⟨entry', member', rfl⟩ := List.mem_map.1 member
    exact column.finite entry' member'⟩

def size (column : Column α) : Nat := column.entries.length

/-- The entries with the names of their constraints. -/
def title (column : Column α) : Title :=
  .between "[" "]" (.joined ", "
    (column.entries.map (fun entry => .append (.text (Scalar.text entry.2 ++ " ")) entry.1.title)))

end Column

end LinearProgram
