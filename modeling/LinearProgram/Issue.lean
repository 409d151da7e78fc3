/-!
# Issues

What is wrong with a loosely typed argument.  Several members of one argument can be wrong
at once, so issues are collected; each names the place inside the argument and the rule that
was broken there.
-/

namespace LinearProgram

/-- A rule that a member of an argument can break. -/
inductive Fault where
  | wrongType (expected received : String)
  | required
  | notFinite
  | notListed (options : List String) (received : String)
  | notColumn
  | crossedBounds
  | wrongLength (expected received : Nat)
  deriving DecidableEq, Repr

/-- Alternatives as a message lists them. -/
def alternatives (options : List String) : String := " | ".intercalate options

namespace Fault

def text : Fault → String
  | wrongType expected received => s!"Expected {expected}, received {received}"
  | required => "Required"
  | notFinite => "Number must be finite"
  | notListed options received =>
    s!"Invalid enum value. Expected {alternatives options}, received '" ++ received ++ "'"
  | notColumn => "Input not instance of Column"
  | crossedBounds => "lower bound must not exceed upper bound"
  | wrongLength expected received => s!"expected {expected} values, got {received}"

end Fault

/-- A broken rule and the member that breaks it, outermost name first. -/
structure Issue where
  path : List String
  fault : Fault
  deriving DecidableEq, Repr

/-- The place, if it is not the argument as a whole, and the rule. -/
def Issue.text (issue : Issue) : String :=
  match issue.path with
  | [] => issue.fault.text
  | path => ".".intercalate path ++ ": " ++ issue.fault.text

end LinearProgram
