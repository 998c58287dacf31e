import Formula.Code.Conversion
import Formula.Code.Operation
/-!
# The stack machine

Code is evaluated for one value of the variable. An operand is pushed; an operator takes its operands from the top
and pushes its result. As soon as a result is undefined, so is the value of the whole code.
-/

namespace Formula

inductive EvaluationError
  | missingOperands (spelling : String)
  | leftover (count : Nat)
  | apply (error : ApplyError)
deriving DecidableEq, Repr

def EvaluationError.message : EvaluationError → String
  | .missingOperands spelling => s!"Not enough operands for '{spelling}'"
  | .leftover count => s!"Unexpected number of operands left after computation: {count}"
  | .apply error => error.message

namespace Code

/-- The value of code where the variable is `x`, with the values on `stack`, topmost first. -/
def run (x : Float) (stack : List Float) : Code → Except EvaluationError Float
  | [] =>
    match stack with
    | [value] => .ok value
    | _ => .error (.leftover stack.length)
  | .operand operand :: rest => run x (operand.valueAt x :: stack) rest
  | .operator operator :: rest =>
    if stack.length < operator.arity then .error (.missingOperands operator.spelling)
    else
      match operator.apply (stack.take operator.arity) with
      | .error error => .error (.apply error)
      | .ok value =>
        if value.isNaN then .ok Number.undefined else run x (value :: stack.drop operator.arity) rest

/-- The value of code where the variable is `x`. It is undefined where `x` is, whatever the code. -/
def evaluate (code : Code) (x : Float) : Report EvaluationError Float :=
  if x.isNaN then pure Number.undefined
  else
    match run x [] code with
    | .ok value => pure value
    | .error (.missingOperands spelling) => .fail (.missingOperands spelling) [.missingOperands spelling]
    | .error (.leftover count) => .fail (.leftover count) [.leftover count, .sequence (Token.spellings code)]
    | .error (.apply error) => .fail (.apply error) []

end Code

end Formula
