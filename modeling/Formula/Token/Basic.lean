import Formula.Text.Blank
import Formula.Text.Quoted
/-!
# Tokens

A definition is a row of tokens: operands, which stand for a value, and operators, which combine values or group
them. `declare` makes a token of given parts, if they fit a token.
-/

namespace Formula

/-- What an operator does. -/
inductive Kind
  | add | subtract | negate | multiply | divide | power | modulo
  | leftParen | rightParen | comma
  | sin | cos | tan | asin | acos | atan | atan2 | sqrt | pow | exp | expm1 | log | log1p | log10
  | abs | floor | ceil | rint
deriving DecidableEq, Repr

/-- Brackets and commas group tokens and are never evaluated. -/
def Kind.isGrouping : Kind → Bool
  | .leftParen | .rightParen | .comma => true
  | _ => false

/-- An operand without a value is the variable. -/
structure Operand where
  spelling : String
  value : Option Float
deriving DecidableEq

/-- An operator with its number of operands. The greater precedence binds tighter. -/
structure Operator where
  kind : Kind
  spelling : String
  arity : Nat
  precedence : Int
  isFunction : Bool
deriving DecidableEq

inductive Token
  | operand (leaf : Operand)
  | operator (node : Operator)
deriving DecidableEq

namespace Operand

def isVariable (operand : Operand) : Bool :=
  operand.value.isNone

/-- The value of an operand where the variable is `x`. -/
def valueAt (operand : Operand) (x : Float) : Float :=
  operand.value.getD x

end Operand

namespace Operator

def isGrouping (operator : Operator) : Bool :=
  operator.kind.isGrouping

def isBinary (operator : Operator) : Bool :=
  !operator.isFunction && operator.arity == 2

end Operator

namespace Token

def spelling : Token → String
  | .operand leaf => leaf.spelling
  | .operator node => node.spelling

def kind? : Token → Option Kind
  | .operand _ => none
  | .operator node => some node.kind

def isVariable : Token → Bool
  | .operand leaf => leaf.isVariable
  | .operator _ => false

/-- A token as a reader is shown it: its class and its quoted spelling. -/
def describe : Token → String
  | .operand leaf => s!"Operand({Text.quoted leaf.spelling})"
  | .operator node => s!"Operator({Text.quoted node.spelling})"

/-- The spellings of a row of tokens, with a space between two of them. -/
def spellings (tokens : List Token) : String :=
  " ".intercalate (tokens.map spelling)

end Token

/-! ## Declaring a token -/

/-- Why parts do not make a token. -/
inductive DeclarationError
  | blankInSpelling (spelling : String)
  | undefinedValue
  | noOperands
deriving DecidableEq, Repr

def DeclarationError.message : DeclarationError → String
  | .blankInSpelling spelling => s!"Token spelling cannot contain whitespace: {Text.quoted spelling}"
  | .undefinedValue => "Operand value cannot be NaN"
  | .noOperands => "Number of operands <= 0"

/-- A spelling holds no blank; one that is not given is empty. -/
def declareSpelling (spelling : Option String) : Except DeclarationError String :=
  let spelling := spelling.getD ""
  if spelling.toList.any Text.isBlank then .error (.blankInSpelling spelling) else .ok spelling

/-- The operand with a given value, or the variable where none is given. -/
def Operand.declare (spelling : Option String) (value : Option Float) : Except DeclarationError Operand := do
  let spelling ← declareSpelling spelling
  if value.any Float.isNaN then throw .undefinedValue
  return { spelling, value }

/-- The operator of given parts, which takes at least one operand. -/
def Operator.declare (kind : Kind) (spelling : Option String) (arity precedence : Int) (isFunction : Bool) :
    Except DeclarationError Operator := do
  let spelling ← declareSpelling spelling
  if arity ≤ 0 then throw .noOperands
  return { kind, spelling, arity := arity.toNat, precedence, isFunction }

end Formula
