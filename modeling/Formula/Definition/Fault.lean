/-!
# Faults of a definition

Why a definition is rejected, and where. A fault has a kind and a reason, which a reader is shown.
-/

namespace Formula

inductive Fault
  /-- There is no text. -/
  | empty
  | unmatchedBracket
  | twoPoints
  | noDigit
  /-- No token begins here. -/
  | unrecognized
  /-- The token may not follow the one before it. -/
  | misplaced
  /-- A call closes with a number of arguments that its function does not take. -/
  | argumentCount
  /-- A comma stands outside the arguments of a call. -/
  | comma
  /-- The text is blank. -/
  | noTokens
  /-- The last token leaves a term open. -/
  | openEnd
deriving DecidableEq, Repr

namespace Fault

inductive Kind
  | emptyDefinition | unmatchedParenthesis | malformedNumber | unrecognizedToken | misplacedToken
  | wrongArgumentCount | invalidComma | incompleteExpression
deriving DecidableEq, Repr

def kind : Fault → Kind
  | .empty => .emptyDefinition
  | .unmatchedBracket => .unmatchedParenthesis
  | .twoPoints | .noDigit => .malformedNumber
  | .unrecognized => .unrecognizedToken
  | .misplaced => .misplacedToken
  | .argumentCount => .wrongArgumentCount
  | .comma => .invalidComma
  | .noTokens | .openEnd => .incompleteExpression

def reason : Fault → String
  | .empty => "Function string is empty"
  | .unmatchedBracket => "Unmatched parenthesis"
  | .twoPoints => "Number operand has multiple decimal points"
  | .noDigit => "Invalid number operand"
  | .unrecognized => "Unrecognized token"
  | .misplaced => "Token not allowed at this position"
  | .argumentCount => "Function op has wrong number of args"
  | .comma => "Invalid comma"
  | .noTokens => "No valid tokens found"
  | .openEnd => "Must end with an operand or )"

end Fault

/-- A fault and the position of the character to blame, or -1 where there is none. -/
structure Rejection where
  fault : Fault
  position : Int
deriving DecidableEq, Repr

def Rejection.message (rejection : Rejection) : String :=
  s!"{rejection.fault.reason} (index {rejection.position})"

/-- The description of a rejected definition, for the texts of its position and of its reason. -/
def failureText (position reason : String) : String :=
  "Parse failed at index " ++ position ++ ": " ++ reason

end Formula
