/-!
# Brackets of a text

Before a definition is read, its round brackets have to match.
-/

namespace Formula.Brackets

/-- The position of the first fault in a text that starts at `position` with `depth` brackets open: a closing
bracket without a partner, or the last character if a bracket stays open. -/
def unmatchedFrom? (depth position : Nat) : List Char → Option Nat
  | [] => if depth = 0 then none else some (position - 1)
  | '(' :: rest => unmatchedFrom? (depth + 1) (position + 1) rest
  | ')' :: rest => if depth = 0 then some position else unmatchedFrom? (depth - 1) (position + 1) rest
  | _ :: rest => unmatchedFrom? depth (position + 1) rest

/-- The position at which the brackets of a text fail to match. -/
def unmatched? (text : List Char) : Option Nat :=
  unmatchedFrom? 0 0 text

example : unmatched? "(x)+(1)".toList = none ∧ unmatched? "x)".toList = some 1 ∧ unmatched? "((x)".toList = some 3 := by
  decide

end Formula.Brackets
