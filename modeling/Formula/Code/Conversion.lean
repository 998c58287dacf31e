import Formula.Report
import Formula.Token.Catalog
/-!
# Postfix code

Tokens in the order of a definition are put into the order in which a stack machine applies them. An operator
waits on a stack until one that binds less follows it; equal precedence does not wait, so chains associate to the
left. Brackets and commas steer the conversion and are dropped.
-/

namespace Formula

/-- Tokens in the order in which a stack machine works on them. -/
abbrev Code := List Token

/-- A closing bracket or a comma to which no bracket is open. -/
inductive ConversionError
  | unmatched (spelling : String)
deriving DecidableEq, Repr

def ConversionError.message : ConversionError → String
  | .unmatched spelling => s!"Unmatched '{spelling}' in validated token sequence"

namespace Code

/-- The operators above the topmost open bracket, that bracket, and what lies below it. -/
def splitAtBracket? (stack : List Operator) : Option (List Operator × Operator × List Operator) :=
  match stack.span fun operator => operator.kind ≠ .leftParen with
  | (above, bracket :: below) => some (above, bracket, below)
  | (_, []) => none

/-- The code for the remaining tokens, with the operators that wait on `stack`, topmost first. -/
def convert (stack : List Operator) : List Token → Except ConversionError Code
  | [] => .ok (stack.map .operator)
  | .operand operand :: rest => (convert stack rest).map (.operand operand :: ·)
  | .operator operator :: rest =>
    match operator.kind with
    | .leftParen => convert (operator :: stack) rest
    | .rightParen =>
      match splitAtBracket? stack with
      | some (above, _, below) => (convert below rest).map (above.map .operator ++ ·)
      | none => .error (.unmatched operator.spelling)
    | .comma =>
      match splitAtBracket? stack with
      | some (above, bracket, below) => (convert (bracket :: below) rest).map (above.map .operator ++ ·)
      | none => .error (.unmatched operator.spelling)
    | _ =>
      let (above, below) := stack.span fun waiting => operator.precedence ≤ waiting.precedence
      (convert (operator :: below) rest).map (above.map .operator ++ ·)

/-- The code for tokens in the order of a definition. -/
def ofTokens (tokens : List Token) : Report ConversionError Code :=
  match convert [] tokens with
  | .ok code => pure code
  | .error (.unmatched spelling) => .fail (.unmatched spelling) [.unmatched spelling]

end Code

end Formula
