import Formula.Token.Basic
/-!
# Categories of tokens

What may follow a token depends on its category alone. A term may begin after some categories (`opensTerm`) and
has just ended after others (`endsTerm`); after a function neither holds, since its bracket has to follow.
-/

namespace Formula

inductive Category
  | none | leftParen | rightParen | comma | negate | binary | function | operand
deriving DecidableEq, Repr

namespace Category

/-- The category of an operator: that of its kind if it groups or negates, else by the way it is written. -/
def ofOperator (operator : Operator) : Category :=
  match operator.kind with
  | .leftParen => .leftParen
  | .rightParen => .rightParen
  | .comma => .comma
  | .negate => .negate
  | _ => if operator.isFunction then .function else .binary

def ofToken : Token → Category
  | .operand _ => .operand
  | .operator node => ofOperator node

def ofPrevious : Option Token → Category
  | Option.none => none
  | some token => ofToken token

def opensTerm : Category → Bool
  | .none | .leftParen | .negate | .binary | .comma => true
  | .rightParen | .function | .operand => false

def endsTerm : Category → Bool
  | .operand | .rightParen => true
  | _ => false

theorem opensTerm_eq_false_of_endsTerm {category : Category} (h : category.endsTerm) :
    category.opensTerm = false := by
  cases category <;> simp_all [endsTerm, opensTerm]

end Category

end Formula
