import LinearProgram.Index
import LinearProgram.OrderedMap

/-!
# Rows

A row of the constraint matrix, or the objective: a constant and cells by variable index, in
the order in which the cells were first filled.  Cells within the zero tolerance are not
kept.  A row checks nothing, neither its indices nor its numbers, so repeated insertion may
leave an infinite cell.
-/

namespace LinearProgram

/-- A sparse row with a constant. -/
structure Row (α : Type) where
  constant : α
  cells : OrderedMap Index α := OrderedMap.empty
  deriving DecidableEq, Repr

namespace Row

variable {α : Type} [Scalar α]

/-- The coefficient of a variable, zero if its cell is empty. -/
def coefficient (row : Row α) (index : Index) : α := (row.cells.get? index).getD 0

def size (row : Row α) : Nat := row.cells.size

/-- Add to a cell; a sum that is nearly zero empties the cell. -/
def insert (row : Row α) (index : Index) (amount : α) : Row α :=
  let sum := row.coefficient index + amount
  { row with
    cells := if Scalar.nearZero sum then row.cells.erase index else row.cells.insert index sum }

def remove (row : Row α) (index : Index) : Row α := { row with cells := row.cells.erase index }

/-- The value of the row, without its constant, where the variables have these values.  A variable
without a value makes the sum undefined. -/
def activity (row : Row α) (values : List α) : α :=
  row.cells.toList.foldl
    (fun total cell => total + cell.2 * (cell.1.get? values).getD Scalar.undefined) 0

end Row

end LinearProgram
