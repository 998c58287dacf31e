import Formula.Definition.Fault
import Formula.Number.Reading
import Formula.Token.Catalog
/-!
# Lexemes

A text is cut from left to right. Blanks are skipped; digits and points, as many as follow one another, are a
number; anything else is the longest spelling of the catalog that fits.
-/

namespace Formula

/-- A token with the position of its first character, or what is at fault there. -/
structure Lexeme where
  start : Nat
  token : Except Fault Token

namespace Lexeme

def isNumeral (c : Char) : Bool :=
  c = '.' || c.isDigit

/-- The number written by digits and points. It has at most one point and at least one digit. -/
def number (run : List Char) : Except Fault Operand :=
  if 2 ≤ run.count '.' then .error .twoPoints
  else if !run.any Char.isDigit then .error .noDigit
  else
    let whole := run.takeWhile Char.isDigit
    let part := (run.dropWhile Char.isDigit).drop 1
    .ok ⟨String.ofList run, some (Number.ofDecimal whole part 0)⟩

/-- The token that begins with a character that is not blank, and how many of the characters after it belong to
the token. -/
def read (c : Char) (rest : List Char) : Except Fault (Token × Nat) :=
  if isNumeral c then
    let more := rest.takeWhile isNumeral
    (number (c :: more)).map fun operand => (.operand operand, more.length)
  else
    match Token.first? (c :: rest) with
    | some token => .ok (token, token.spelling.length - 1)
    | none => .error .unrecognized

/-- The lexemes of a text that starts at `position`, up to the first fault. -/
def ofText (position : Nat) : List Char → List Lexeme
  | [] => []
  | c :: rest =>
    if Text.isBlank c then ofText (position + 1) rest
    else
      match read c rest with
      | .error fault => [⟨position, .error fault⟩]
      | .ok (token, more) => ⟨position, .ok token⟩ :: ofText (position + 1 + more) (rest.drop more)
termination_by text => text.length
decreasing_by all_goals simp only [List.length_drop, List.length_cons]; omega

end Lexeme

end Formula
