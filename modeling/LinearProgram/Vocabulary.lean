import LinearProgram.Scalar

/-!
# Closed vocabularies

Relations, kinds of variables, directions of optimization and statuses.  Each has a closed list
of values with the codes under which they are written and read; reading a code inverts writing it.
-/

namespace LinearProgram

/-- How an expression is related to zero.  An affine expression is not related at all. -/
inductive Relation where
  | affine
  | equal
  | atMost
  | atLeast
  deriving DecidableEq, Repr

namespace Relation

def all : List Relation := [affine, equal, atMost, atLeast]

/-- The mark by which a caller names the relation. -/
def mark : Relation → String
  | affine => ""
  | equal => "="
  | atMost => "<"
  | atLeast => ">"

/-- The sign between the two sides of a written relation. -/
def sign : Relation → String
  | affine => ""
  | equal => "="
  | atMost => "<="
  | atLeast => ">="

def ofMark? (text : String) : Option Relation := all.find? (fun relation => relation.mark == text)

theorem ofMark?_mark (relation : Relation) : ofMark? relation.mark = some relation := by
  cases relation <;> decide

end Relation

/-- Which values a variable may take. -/
inductive VariableKind where
  | binary
  | continuous
  | integer
  deriving DecidableEq, Repr

namespace VariableKind

def all : List VariableKind := [binary, continuous, integer]

def name : VariableKind → String
  | binary => "Binary"
  | continuous => "Continuous"
  | integer => "Integer"

def code : VariableKind → String
  | binary => "B"
  | continuous => "C"
  | integer => "I"

def ofCode? (text : String) : Option VariableKind := all.find? (fun kind => kind.code == text)

theorem ofCode?_code (kind : VariableKind) : ofCode? kind.code = some kind := by
  cases kind <;> decide

end VariableKind

/-- Whether the objective is to be small or large. -/
inductive Direction where
  | minimize
  | maximize
  deriving DecidableEq, Repr

namespace Direction

def all : List Direction := [minimize, maximize]

def name : Direction → String
  | minimize => "Minimize"
  | maximize => "Maximize"

def code : Direction → String
  | minimize => "MIN"
  | maximize => "MAX"

def ofCode? (text : String) : Option Direction :=
  all.find? (fun direction => direction.code == text)

theorem ofCode?_code (direction : Direction) : ofCode? direction.code = some direction := by
  cases direction <;> decide

end Direction

/-- What the last optimization found out. -/
inductive Status where
  | error
  | optimal
  | infeasible
  | unbounded
  | feasible
  | integerInfeasible
  | noSolutionFound
  | loaded
  | cutoff
  | other
  deriving DecidableEq, Repr

namespace Status

def all : List Status :=
  [error, optimal, infeasible, unbounded, feasible, integerInfeasible, noSolutionFound, loaded,
    cutoff, other]

def name : Status → String
  | error => "Error"
  | optimal => "Optimal"
  | infeasible => "Infeasible"
  | unbounded => "Unbounded"
  | feasible => "Feasible"
  | integerInfeasible => "IntInfeasible"
  | noSolutionFound => "NoSolutionFound"
  | loaded => "Loaded"
  | cutoff => "Cutoff"
  | other => "Other"

def code : Status → Int
  | error => -1
  | optimal => 0
  | infeasible => 1
  | unbounded => 2
  | feasible => 3
  | integerInfeasible => 4
  | noSolutionFound => 5
  | loaded => 6
  | cutoff => 7
  | other => 10000

/-- Solution values exist only for these statuses. -/
def hasSolution (status : Status) : Bool := status == optimal || status == feasible

def number {α : Type} [Scalar α] (status : Status) : α :=
  if status.code < 0 then -Scalar.ofNat status.code.natAbs else Scalar.ofNat status.code.natAbs

/-- The status whose code is numerically equal to a number. -/
def ofNumber? {α : Type} [Scalar α] (value : α) : Option Status :=
  all.find? (fun status => status.number == value)

end Status

end LinearProgram
