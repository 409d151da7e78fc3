import LinearProgram.Value.Accepted

/-!
# Pairing constraints with coefficients

How a column is made.  The two lists have to be of one length and the coefficients finite
numbers; the first coefficient that is not is reported.
-/

namespace LinearProgram.Column

variable {α : Type} [Scalar α]

/-- Pair constraints with numbers. -/
def pair (constraints : List Participant) (coefficients : List α) : Except (Error α) (Column α) :=
  if constraints.length ≠ coefficients.length then
    .error (.columnCount (.count constraints.length) (.count coefficients.length))
  else
    match rejected : coefficients.find? (fun coefficient => !Scalar.isFinite coefficient) with
    | some coefficient => .error (.notFinite (.number coefficient))
    | none =>
      .ok ⟨constraints.zip coefficients, by
        intro entry member
        have listed : entry.2 ∈ coefficients := (List.of_mem_zip member).2
        simpa using List.find?_eq_none.1 rejected entry.2 listed⟩

/-- Pair constraints with coefficients, both as a caller gives them. -/
def build (constraints coefficients : Value α) : Except (Error α) (Column α) := do
  unless constraints.length.identical coefficients.length do
    throw (.columnCount constraints.length coefficients.length)
  let numbers ← coefficients.items.mapM Value.finite
  pair (← constraints.items.mapM Value.participant) numbers

/-- The entries of whatever has constraints and coefficients.  Nothing is said about the numbers
unless it is a column. -/
def entriesOf : Value α → Except (Error α) (List (Participant × α))
  | .column _ column => .ok column.entries
  | other =>
    match other.member "constrs" with
    | .list constraints _ =>
      constraints.zipIdx.mapM (fun entry => do
        return (← entry.1.participant, ((other.member "coeffs").item entry.2).amount))
    | _ => .error (.unsupported other)

end LinearProgram.Column
