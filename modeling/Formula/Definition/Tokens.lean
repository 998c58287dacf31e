import Formula.Definition.Brackets
import Formula.Definition.Call
import Formula.Definition.Lexeme
/-!
# The tokens of a definition

A definition is accepted if its brackets match, if every lexeme may stand where it does, and if the last one ends
a term. Its tokens are then its lexemes, with a minus that begins a term turned into unary minus.
-/

namespace Formula

/-- The token that a lexeme becomes after the accepted tokens `recent`, newest first. The token before it decides
first whether it may stand here at all; a closing bracket or a comma then has to fit the enclosing call. -/
def accept (recent : List Token) (token : Token) : Except Fault Token :=
  let previous := Category.ofPrevious recent.head?
  match token with
  | .operand _ => if previous.opensTerm then .ok token else .error .misplaced
  | .operator operator =>
    if operator.isFunction then
      if previous.opensTerm then .ok token else .error .misplaced
    else
      match operator.kind with
      | .leftParen => if previous.opensTerm || previous = .function then .ok token else .error .misplaced
      | .rightParen =>
        if !previous.endsTerm then .error .misplaced
        else if Call.argumentsFit recent then .ok token
        else .error .argumentCount
      | .comma =>
        if !previous.endsTerm then .error .misplaced
        else if Call.isInside recent then .ok token
        else .error .comma
      | kind =>
        if previous.endsTerm then .ok token
        else if kind = .subtract && previous.opensTerm && previous ≠ .negate then .ok .negate
        else .error .misplaced

/-- Accepts lexemes after the tokens `recent`, newest first, until one is at fault. -/
def acceptAll (recent : List Token) : List Lexeme → Except Rejection (List Token)
  | [] => .ok recent
  | lexeme :: rest =>
    match lexeme.token >>= accept recent with
    | .error fault => .error ⟨fault, lexeme.start⟩
    | .ok token => acceptAll (token :: recent) rest

/-- The tokens of a text, or its first fault. -/
def tokensOf (text : List Char) : Except Rejection (List Token) :=
  if text.isEmpty then .error ⟨.empty, -1⟩
  else
    match Brackets.unmatched? text with
    | some position => .error ⟨.unmatchedBracket, position⟩
    | none =>
      match acceptAll [] (Lexeme.ofText 0 text) with
      | .error rejection => .error rejection
      | .ok [] => .error ⟨.noTokens, 0⟩
      | .ok (last :: before) =>
        if (Category.ofToken last).endsTerm then .ok (last :: before).reverse
        else .error ⟨.openEnd, text.length - 1⟩

def tokenize (definition : String) : Except Rejection (List Token) :=
  tokensOf definition.toList

end Formula
