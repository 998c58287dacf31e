import Formula.Token.Category
/-!
# The enclosing call

Whether a place in a definition lies among the arguments of a function, and how many arguments precede it, is
read off the tokens before it, newest first: the walk goes back to the innermost bracket still open.
-/

namespace Formula.Call

/-- Walks back to the innermost open bracket: the number of arguments after it, and the tokens before it. On the
way `closed` brackets have been passed that are still to be opened, and `arguments` arguments have been seen. -/
def openBracket? (closed arguments : Nat) : List Token → Option (Nat × List Token)
  | [] => none
  | token :: before =>
    match token.kind? with
    | some .rightParen => openBracket? (closed + 1) arguments before
    | some .leftParen =>
      if closed = 0 then some (arguments, before) else openBracket? (closed - 1) arguments before
    | some .comma =>
      if closed = 0 then openBracket? closed (arguments + 1) before
      else openBracket? closed (max arguments 1) before
    | _ => openBracket? closed (max arguments 1) before

/-- The function whose arguments are being written after the tokens `recent`, newest first, and how many there are
so far. -/
def enclosing? (recent : List Token) : Option (Operator × Nat) :=
  match openBracket? 0 0 recent with
  | some (arguments, .operator operator :: _) =>
    if Category.ofOperator operator = .function then some (operator, arguments) else none
  | _ => none

/-- The next token is written among the arguments of a function. -/
def isInside (recent : List Token) : Bool :=
  (enclosing? recent).isSome

/-- A closing bracket that comes next gives the function around it, if there is one, as many arguments as it
takes. -/
def argumentsFit (recent : List Token) : Bool :=
  (enclosing? recent).all fun (operator, arguments) => operator.arity = arguments

end Formula.Call
