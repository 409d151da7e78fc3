import LinearProgram.Model.Basic

/-!
# Reading a solution

While a model has a solution, its variables have values and its constraints have slacks.
Other solutions may have come along in a pool.  Reduced costs and dual values mean something
for continuous models only, so they are not known for others.
-/

namespace LinearProgram.Model

variable {α : Type} [Scalar α]

def isContinuous (model : Model α) : Bool :=
  model.variableTable.all (fun data => data.kind.isContinuous)

/-- The status as a number: the one given with the solution, or else the code of the status. -/
def statusNumber (model : Model α) : α :=
  (model.solution.map SolutionData.statusNumber).getD model.status.number

/-- The value of the objective: the one given with the solution, or else the objective at
its values. -/
def objectiveValue (model : Model α) : Option α :=
  model.solution.map (fun solution =>
    solution.objectiveValue.getD
      (model.objective.activity solution.values + model.objective.constant))

/-- The number of solutions: those of the pool, or else the solution itself. -/
def solutionCount (model : Model α) : Nat :=
  match model.solution with
  | none => 0
  | some solution => (solution.pool.map List.length).getD 1

def value (model : Model α) (index : Index) : Option α :=
  model.solution.bind (fun solution => index.get? solution.values)

/-- The value of a variable in a solution of the pool, or in the solution itself if there is
no pool. -/
def pooledValue (model : Model α) (index : Index) (number : Value α) : Option α := do
  let solution ← model.solution
  let .number number := number | none
  let position ← Scalar.natural? number
  let values ← (solution.pool.getD [solution.values])[position]?
  index.get? values

/-- The value of a variable in a numbered solution, while the status is one with solutions. -/
def numberedValue (model : Model α) (index : Index) (number : Value α) : Option α :=
  if model.status.hasSolution then model.pooledValue index number else none

/-- The reduced cost of a variable, known for continuous models only. -/
def reducedCost (model : Model α) (index : Index) : Option α :=
  if model.isContinuous then do index.get? (← (← model.solution).reducedCosts) else none

/-- What a constraint leaves up to its right hand side, negative if the activity is above. -/
def slack (model : Model α) (index : Index) : Option α :=
  model.solution.map (fun solution =>
    -(model.row index).constant - (model.row index).activity solution.values)

/-- The dual value of a constraint, known for continuous models only. -/
def dual (model : Model α) (index : Index) : Option α :=
  if model.isContinuous then do index.get? (← (← model.solution).duals) else none

end LinearProgram.Model
