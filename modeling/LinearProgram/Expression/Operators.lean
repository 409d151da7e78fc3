import LinearProgram.Expression.Edit

/-!
# Operators on expressions and variables

Operators make new expressions and leave their operands alone.  All of them go through the
updates of an expression, so they accept and refuse the same operands.

A variable stands for the expression with that one term; its operators are written out
because they start from fresh terms instead of existing ones.
-/

namespace LinearProgram

variable {α : Type} [Scalar α]

namespace Expression

/-- The expression without terms and constant. -/
def zero (relation : Relation := .affine) : Expression α := { constant := 0, relation }

/-- The sum with a number, a variable or an expression. -/
def plus (expression : Expression α) (value : Value α) : Except (Error α) (Expression α) :=
  expression.after (addMultiple value 1)

/-- The difference to a number, a variable or an expression. -/
def minus (expression : Expression α) (value : Value α) : Except (Error α) (Expression α) :=
  expression.after (addMultiple value (-1))

def times (expression : Expression α) (factor : α) : Except (Error α) (Expression α) :=
  (zero expression.relation).after (addExpression expression factor)

/-- The multiple by a value, which has to be a number. -/
def multiply (expression : Expression α) (factor : Value α) :
    Except (Error α) (Expression α) := do
  expression.times (← factor.scalar "multiply")

/-- The quotient by a value, which has to be a number. -/
def divide (expression : Expression α) (divisor : Value α) :
    Except (Error α) (Expression α) := do
  expression.times (1 / (← divisor.scalar "divide"))

def negate (expression : Expression α) : Except (Error α) (Expression α) :=
  expression.times (-1)

/-- Relate the expression to a number, a variable or an expression: their difference to zero. -/
def relate (expression : Expression α) (relation : Relation) (value : Value α) :
    Except (Error α) (Expression α) := do
  return { ← expression.minus value with relation }

/-- The sum of numbers, variables and expressions. -/
def sum (values : List (Value α)) : Except (Error α) (Expression α) :=
  values.foldlM (fun total value => total.plus value) zero

end Expression

namespace Variable

def times (handle : Variable) (factor : α) : Except (Error α) (Expression α) :=
  Expression.assemble [(handle.participant, factor)] 0 .affine

def toExpression (handle : Variable) : Except (Error α) (Expression α) := handle.times 1

/-- The sum of a variable with a number, a variable or an expression. -/
def plus (handle : Variable) (value : Value α) : Except (Error α) (Expression α) := do
  (← handle.toExpression).after (Expression.addMultiple value 1)

/-- The difference of a variable to a number, a variable or an expression. -/
def minus (handle : Variable) (value : Value α) : Except (Error α) (Expression α) := do
  (← handle.toExpression).after (Expression.addMultiple value (-1))

/-- The multiple of a variable by a value, which has to be a number. -/
def multiply (handle : Variable) (factor : Value α) : Except (Error α) (Expression α) := do
  handle.times (← factor.scalar "multiply")

/-- The quotient of a variable by a value, which has to be a number. -/
def divide (handle : Variable) (divisor : Value α) : Except (Error α) (Expression α) := do
  handle.times (1 / (← divisor.scalar "divide"))

def negate (handle : Variable) : Except (Error α) (Expression α) := handle.times (-1)

/-- Relate a variable to a number, a variable or an expression. -/
def relate (handle : Variable) (relation : Relation) (value : Value α) :
    Except (Error α) (Expression α) := do
  return { ← handle.minus value with relation }

end Variable

/-- The operators that both variables and expressions have. -/
inductive Operator where
  | plus
  | minus
  | multiply
  | divide
  | negate
  | relate (relation : Relation)
  deriving DecidableEq, Repr

namespace Operator

/-- Apply an operator to an expression; changing signs ignores the operand. -/
def onExpression (operator : Operator) (expression : Expression α) (operand : Value α) :
    Except (Error α) (Expression α) :=
  match operator with
  | plus => expression.plus operand
  | minus => expression.minus operand
  | multiply => expression.multiply operand
  | divide => expression.divide operand
  | negate => expression.negate
  | relate relation => expression.relate relation operand

/-- Apply an operator to a variable; changing signs ignores the operand. -/
def onVariable (operator : Operator) (handle : Variable) (operand : Value α) :
    Except (Error α) (Expression α) :=
  match operator with
  | plus => handle.plus operand
  | minus => handle.minus operand
  | multiply => handle.multiply operand
  | divide => handle.divide operand
  | negate => handle.negate
  | relate relation => handle.relate relation operand

/-- Apply an operator to a variable or an expression; nothing else has operators. -/
def apply (operator : Operator) (receiver operand : Value α) : Except (Error α) (Expression α) :=
  match receiver with
  | .handle handle => operator.onVariable handle operand
  | .expression _ expression => operator.onExpression expression operand
  | other => .error (.unsupported other)

end Operator

end LinearProgram
