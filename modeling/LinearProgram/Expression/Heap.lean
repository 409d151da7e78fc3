import LinearProgram.Expression.Operators

/-!
# Expressions as objects

Expressions are changed in place, and one of them can be given to several operations, or twice to
one.  So an object does not hold its terms itself, but states in which table they are.  A variable is
added to that table in place.  Sums and multiples are collected in another table, which takes the
place of the first one only when all terms were accepted.

Operators make an object of their own and change that one in place.
-/

namespace LinearProgram

/-- What an expression object holds. -/
structure Body (α : Type) where
  /-- The number of the table with its terms. -/
  table : Nat
  constant : α
  relation : Relation

/-- Expression objects, and the tables that they refer to.  What nothing refers to any more stays. -/
structure Heap (α : Type) where
  bodies : List (Body α) := []
  tables : List (Terms α) := []

/-- What operations on objects need to know of everything else: what a participant is by now, and
for which number a value counts.  Variables always are what they were. -/
structure Outlook (α : Type) [Scalar α] where
  see : Participant → Participant
  reckon : Reckoning α
  see_see : ∀ participant, see (see participant) = see participant
  see_variable : ∀ handle : Variable, see handle.participant = handle.participant

/-- An update of a heap that can fail. -/
abbrev HeapUpdate (α : Type) [Scalar α] := EStateM (Error α) (Heap α)

namespace Heap

variable {α : Type}

/-- How many objects there are. -/
def size (heap : Heap α) : Nat := heap.bodies.length

def termsAt (heap : Heap α) (table : Nat) : Terms α :=
  (heap.tables[table]?).getD OrderedMap.empty

/-- An object together with its terms. -/
def read? (heap : Heap α) (number : Nat) : Option (Expression α) :=
  heap.bodies[number]?.map (fun body => ⟨heap.termsAt body.table, body.constant, body.relation⟩)

/-- Put other terms into a table. -/
def putTable (table : Nat) (terms : Terms α) (heap : Heap α) : Heap α :=
  { heap with tables := heap.tables.set table terms }

def addTable (terms : Terms α) (heap : Heap α) : Heap α :=
  { heap with tables := heap.tables ++ [terms] }

def addBody (body : Body α) (heap : Heap α) : Heap α :=
  { heap with bodies := heap.bodies ++ [body] }

def modifyBody (number : Nat) (change : Body α → Body α) (heap : Heap α) : Heap α :=
  { heap with bodies := heap.bodies.modify number change }

/-- Put other terms into the table of an object. -/
def putTerms (number : Nat) (terms : Terms α) (heap : Heap α) : Heap α :=
  match heap.bodies[number]? with
  | some body => heap.putTable body.table terms
  | none => heap

variable [Scalar α]

/-- An object with its terms, as it has to be seen by now. -/
def seen (outlook : Outlook α) (heap : Heap α) (number : Nat) : Expression α :=
  ((heap.read? number).getD { constant := 0 }).map outlook.see

def newTable (terms : Terms α) : HeapUpdate α Nat := do
  let table := (← get).tables.length
  modify (addTable terms)
  return table

/-- Make an object that has a table of its own. -/
def create (expression : Expression α) : HeapUpdate α Nat := do
  let table ← newTable expression.terms
  let number := (← get).size
  modify (addBody ⟨table, expression.constant, expression.relation⟩)
  return number

/-- Add a multiple of a participant to a table. -/
def insertTerm (table : Nat) (participant : Participant) (coefficient : α) :
    HeapUpdate α Unit := do
  let terms ← ((← get).termsAt table).add participant coefficient
  modify (putTable table terms)

/-- Add multiples of terms to a table, one after the other. -/
def insertTerms (table : Nat) (terms : List (Term α)) (factor : α) : HeapUpdate α Unit :=
  terms.forM (fun term => insertTerm table term.participant (term.coefficient * factor))

/-- Collect terms in a new table and let an object refer to that one. -/
def rebuild (number : Nat) (start : Terms α) (added : List (Term α)) (factor constant : α) :
    HeapUpdate α Unit := do
  let table ← newTable start
  insertTerms table added factor
  modify (modifyBody number (fun body => { body with table, constant }))

def setRelation (number : Nat) (relation : Relation) : HeapUpdate α Unit :=
  modify (modifyBody number (fun body => { body with relation }))

section InPlace

variable (outlook : Outlook α) (number : Nat)

def addConstant (amount : α) : HeapUpdate α Unit := do
  let amount ← finite amount
  let target := (← get).seen outlook number
  let constant ← finite (target.constant + amount)
  modify (modifyBody number (fun body => { body with constant }))

def addTerm (participant : Participant) (coefficient : α) : HeapUpdate α Unit := do
  let target := (← get).seen outlook number
  let terms ← target.terms.add participant coefficient
  modify (putTerms number terms)

/-- Add a multiple of another object, or of the same one. -/
def addExpression (other : Nat) (factor : α) : HeapUpdate α Unit := do
  let factor ← finite factor
  let target := (← get).seen outlook number
  let source := (← get).seen outlook other
  target.requireOneModel source
  let product ← finite (source.constant * factor)
  let constant ← finite (target.constant + product)
  rebuild number target.terms source.termList factor constant

/-- Add a multiple of what is given as an expression.  Anything else is refused, at the latest when
its terms are asked for. -/
def addContents (other : Value α) (factor : α) : HeapUpdate α Unit := do
  match other with
  | .expression source _ => addExpression outlook number source factor
  | other => do
    let target := (← get).seen outlook number
    let _ ← target.after (Expression.addContents outlook.reckon other factor)

/-- Add a multiple of a number, a variable or an expression. -/
def addMultiple (term : Value α) (factor : α) : HeapUpdate α Unit := do
  let factor ← finite factor
  match term with
  | .number amount => addConstant outlook number (amount * factor)
  | .handle handle => addTerm outlook number handle.participant factor
  | .expression other _ => addExpression outlook number other factor
  | other => throw (.unsupported other)

def scale (factor : α) : HeapUpdate α Unit := do
  let factor ← finite factor
  let target := (← get).seen outlook number
  let constant ← finite (target.constant * factor)
  rebuild number OrderedMap.empty target.termList factor constant

/-- Change an object in place.  A factor is looked at before anything else. -/
def edit : Expression.Edit α → HeapUpdate α Unit
  | .addConstant amount => do addConstant outlook number (← amount.scalar "add")
  | .addVariable handle coefficient => do
    let coefficient ← coefficient.finite
    addTerm outlook number (← handle.participant) coefficient
  | .addExpression other factor => do
    addContents outlook number other (← factor.scalar "multiply")
  | .addMultiple term factor => do
    addMultiple outlook number term (← factor.scalar "multiply")
  | .scale factor => do scale outlook number (← factor.scalar "multiply")
  | .setRelation relation => do setRelation number (← relation.relation)

end InPlace

/-- What has operators. -/
inductive Receiver where
  | variable (handle : Variable)
  | object (number : Nat)

def Receiver.ofValue : Value α → Except (Error α) Receiver
  | .handle handle => .ok (.variable handle)
  | .expression number _ => .ok (.object number)
  | other => .error (.unsupported other)

section Making

variable (outlook : Outlook α)

def copy (number : Nat) : HeapUpdate α Nat := do create ((← get).seen outlook number)

/-- An object of its own, to which operands can be added. -/
def startFrom : Receiver → HeapUpdate α Nat
  | .variable handle => do create (← (handle.toExpression : Except (Error α) (Expression α)))
  | .object number => copy outlook number

/-- The sum of an expression or a variable with a multiple of an operand. -/
def combine (receiver : Receiver) (operand : Value α) (factor : α) : HeapUpdate α Nat := do
  let result ← startFrom outlook receiver
  addMultiple outlook result operand factor
  return result

/-- The multiple of an expression or a variable. -/
def multiple (receiver : Receiver) (factor : α) : HeapUpdate α Nat := do
  match receiver with
  | .variable handle => do create (← handle.times factor)
  | .object number => do
    let result ← create (Expression.zero ((← get).seen outlook number).relation)
    addExpression outlook result number factor
    return result

/-- Apply an operator; changing signs ignores the operand. -/
def operateOn (operator : Operator) (receiver : Receiver) (operand : Value α) :
    HeapUpdate α Nat :=
  match operator with
  | .plus => combine outlook receiver operand 1
  | .minus => combine outlook receiver operand (-1)
  | .multiply => do multiple outlook receiver (← operand.scalar "multiply")
  | .divide => do multiple outlook receiver (1 / (← operand.scalar "divide"))
  | .negate => multiple outlook receiver (-1)
  | .relate relation => do
    let result ← combine outlook receiver operand (-1)
    setRelation result relation
    return result

/-- Apply an operator to a variable or an expression; nothing else has operators. -/
def operate (operator : Operator) (receiver operand : Value α) : HeapUpdate α Nat := do
  operateOn outlook operator (← Receiver.ofValue receiver) operand

/-- The sum of numbers, variables and expressions. -/
def sum (terms : List (Value α)) : HeapUpdate α Nat := do
  let result ← create Expression.zero
  terms.forM (fun term => addMultiple outlook result term 1)
  return result

end Making

/-- A way to make an object. -/
inductive Making (α : Type) [Scalar α] where
  | build (handles coefficients constant relation : Value α)
  | operate (operator : Operator) (receiver operand : Value α)
  | copy (number : Nat)
  | sum (terms : List (Value α))
  /-- An expression that a model gives out. -/
  | receive (expression : Expression α)

/-- Make an object and give its number. -/
def make (outlook : Outlook α) : Making α → HeapUpdate α Nat
  | .build handles coefficients constant relation => do
    create (← Expression.build outlook.reckon handles coefficients constant relation)
  | .operate operator receiver operand => operate outlook operator receiver operand
  | .copy number => copy outlook number
  | .sum terms => sum outlook terms
  | .receive expression => create expression

end Heap

end LinearProgram
