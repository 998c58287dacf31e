import Formula.Number.Basic
import Formula.Token.Basic
/-!
# Operations

What each kind of operator computes. Operands come in the order of a stack, the right one on top. Results follow
the rules of doubles: a quotient by zero is infinite, and what has no value is undefined.
-/

namespace Formula

/-- A function of one double, or of a left and a right one. -/
inductive Operation
  | unary (f : Float → Float)
  | binary (f : Float → Float → Float)

/-- The result on operands in the order of a stack. An operand that is not there is undefined, and so is the
result. -/
def Operation.run : Operation → List Float → Float
  | .unary f, x :: _ => f x
  | .binary f, right :: left :: _ => f left right
  | _, _ => Number.undefined

/-- The operation of a kind; a grouping operator has none. `expm1` and `log1p` shift their argument before the
exponential or the logarithm is taken. -/
def Kind.operation? : Kind → Option Operation
  | .add => some (.binary (· + ·))
  | .subtract => some (.binary (· - ·))
  | .multiply => some (.binary (· * ·))
  | .divide => some (.binary (· / ·))
  | .power | .pow => some (.binary Float.pow)
  | .modulo => some (.binary Number.remainder)
  | .atan2 => some (.binary Float.atan2)
  | .negate => some (.unary (- ·))
  | .sin => some (.unary Float.sin)
  | .cos => some (.unary Float.cos)
  | .tan => some (.unary Float.tan)
  | .asin => some (.unary Float.asin)
  | .acos => some (.unary Float.acos)
  | .atan => some (.unary Float.atan)
  | .sqrt => some (.unary Float.sqrt)
  | .exp => some (.unary Float.exp)
  | .expm1 => some (.unary fun x => Float.exp (x - 1))
  | .log => some (.unary Float.log)
  | .log1p => some (.unary fun x => Float.log (x + 1))
  | .log10 => some (.unary Float.log10)
  | .abs => some (.unary Float.abs)
  | .floor => some (.unary Float.floor)
  | .ceil => some (.unary Float.ceil)
  | .rint => some (.unary Number.nearest)
  | .leftParen | .rightParen | .comma => none

inductive ApplyError
  | notEvaluable (spelling : String)
  | operandCount (spelling : String) (expected given : Nat)
deriving DecidableEq, Repr

def ApplyError.message : ApplyError → String
  | .notEvaluable spelling => s!"Operator '{spelling}' cannot be evaluated"
  | .operandCount spelling expected given =>
    s!"Incorrect number of operands supplied for '{spelling}': expected {expected}, got {given}"

def Operator.apply (operator : Operator) (operands : List Float) : Except ApplyError Float :=
  match operator.kind.operation? with
  | none => .error (.notEvaluable operator.spelling)
  | some operation =>
    if operands.length = operator.arity then .ok (operation.run operands)
    else .error (.operandCount operator.spelling operator.arity operands.length)

end Formula
