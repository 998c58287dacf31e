import Formula.Definition.Call
import Formula.Token.Catalog
/-!
# The grammar of definitions

`Derives` is the context-free grammar of definitions, over the tokens that a text is cut into. A minus is one token
there, whatever it does; the derivation says which one is a sign, so that it also gives the tokens in which signs
and subtractions differ. The walk back to the enclosing bracket (`Call.openBracket?`) passes over what is derived
and counts the arguments in it (`Derives.openBracket?_eq`).
-/

namespace Formula

namespace Kind

def token (kind : Kind) : Token := .operator kind.operator

/-- The operators that stand between their operands. -/
def isInfix : Kind → Bool
  | .add | .subtract | .multiply | .divide | .modulo | .power => true
  | _ => false

variable {kind : Kind}

theorem isGrouping_of_isFunction (h : kind.isFunction) : kind.isGrouping = false := by
  cases kind <;> first | rfl | cases h

theorem isGrouping_of_isInfix (h : kind.isInfix) : kind.isGrouping = false := by
  cases kind <;> first | rfl | cases h

theorem arity_eq_one_or_two (kind : Kind) : kind.arity = 1 ∨ kind.arity = 2 := by
  cases kind <;> first | exact .inl rfl | exact .inr rfl

theorem arity_of_isInfix (h : kind.isInfix) : kind.arity = 2 := by
  cases kind <;> first | rfl | cases h

end Kind

inductive Phrase
  | expression | term | primary
  /-- Expressions with commas between them. -/
  | arguments (count : Nat)

open Kind in
/-- What is derived from a part: a row of lexemes, and the tokens that they stand for. -/
inductive Derives : Phrase → List Token → List Token → Prop
  | operand (leaf : Operand) : Derives .primary [.operand leaf] [.operand leaf]
  | group {lexemes tokens : List Token} (inner : Derives .expression lexemes tokens) :
      Derives .primary (leftParen.token :: lexemes ++ [rightParen.token])
        (leftParen.token :: tokens ++ [rightParen.token])
  /-- A function is given as many arguments as it takes. -/
  | call {function : Kind} {lexemes tokens : List Token} (isFunction : function.isFunction)
      (inner : Derives (.arguments function.arity) lexemes tokens) :
      Derives .primary (function.token :: leftParen.token :: lexemes ++ [rightParen.token])
        (function.token :: leftParen.token :: tokens ++ [rightParen.token])
  | bare {lexemes tokens : List Token} (primary : Derives .primary lexemes tokens) : Derives .term lexemes tokens
  /-- A minus before a term is its sign. -/
  | signed {lexemes tokens : List Token} (primary : Derives .primary lexemes tokens) :
      Derives .term (subtract.token :: lexemes) (negate.token :: tokens)
  | single {lexemes tokens : List Token} (term : Derives .term lexemes tokens) : Derives .expression lexemes tokens
  | chain {operator : Kind} {lexemes tokens lexemes' tokens' : List Token} (isInfix : operator.isInfix)
      (first : Derives .expression lexemes tokens) (last : Derives .term lexemes' tokens') :
      Derives .expression (lexemes ++ operator.token :: lexemes') (tokens ++ operator.token :: tokens')
  | one {lexemes tokens : List Token} (only : Derives .expression lexemes tokens) :
      Derives (.arguments 1) lexemes tokens
  | more {count : Nat} {lexemes tokens lexemes' tokens' : List Token}
      (first : Derives (.arguments count) lexemes tokens) (last : Derives .expression lexemes' tokens') :
      Derives (.arguments (count + 1)) (lexemes ++ comma.token :: lexemes') (tokens ++ comma.token :: tokens')

/-! ## The token before a place -/

/-- The category of the newest of the tokens before a place. -/
def previous (recent : List Token) : Category :=
  Category.ofPrevious recent.head?

@[simp] theorem previous_nil : previous [] = .none := rfl

@[simp] theorem previous_cons (token : Token) (recent : List Token) :
    previous (token :: recent) = Category.ofToken token := rfl

@[simp] theorem ofToken_operand (leaf : Operand) : Category.ofToken (.operand leaf) = .operand := rfl

@[simp] theorem ofToken_leftParen : Category.ofToken Kind.leftParen.token = .leftParen := rfl

@[simp] theorem ofToken_rightParen : Category.ofToken Kind.rightParen.token = .rightParen := rfl

@[simp] theorem ofToken_comma : Category.ofToken Kind.comma.token = .comma := rfl

@[simp] theorem ofToken_negate : Category.ofToken Kind.negate.token = .negate := rfl

theorem ofToken_function {kind : Kind} (h : kind.isFunction) : Category.ofToken kind.token = .function := by
  cases kind <;> first | rfl | cases h

theorem ofToken_binary {kind : Kind} (h : kind.isInfix) : Category.ofToken kind.token = .binary := by
  cases kind <;> first | rfl | cases h

/-- Whatever is derived ends a term. -/
theorem Derives.endsTerm {phrase : Phrase} {lexemes tokens : List Token} (h : Derives phrase lexemes tokens)
    (recent : List Token) : (previous (tokens.reverse ++ recent)).endsTerm := by
  induction h generalizing recent with
  | operand => rfl
  | group => simp [Category.endsTerm]
  | call => simp [Category.endsTerm]
  | bare _ ih | single _ ih | one _ ih => exact ih recent
  | signed _ ih => simpa using ih (Kind.negate.token :: recent)
  | @chain operator _ tokens _ _ _ _ _ _ ih => simpa using ih (operator.token :: (tokens.reverse ++ recent))
  | @more _ _ tokens _ _ _ _ _ ih => simpa using ih (Kind.comma.token :: (tokens.reverse ++ recent))

/-! ## The walk back over a phrase -/

theorem reverse_enclosed (first last : Token) (tokens before : List Token) :
    (first :: tokens ++ [last]).reverse ++ before = last :: (tokens.reverse ++ first :: before) := by
  simp

theorem reverse_cons_enclosed (function first last : Token) (tokens before : List Token) :
    (function :: first :: (tokens ++ [last])).reverse ++ before =
      last :: (tokens.reverse ++ first :: function :: before) := by
  simp

theorem reverse_joined (token : Token) (tokens tokens' before : List Token) :
    (tokens ++ token :: tokens').reverse ++ before = tokens'.reverse ++ token :: (tokens.reverse ++ before) := by
  simp

namespace Call

/-- The tokens that count as the beginning of an argument: all but brackets, and commas only at depth. -/
theorem openBracket?_cons {token : Token} (h : token.kind? ≠ some .leftParen) (h' : token.kind? ≠ some .rightParen)
    (hc : token.kind? ≠ some .comma) (closed arguments : Nat) (before : List Token) :
    openBracket? closed arguments (token :: before) = openBracket? closed (max arguments 1) before := by
  rw [openBracket?]
  split <;> simp_all

theorem openBracket?_operand (leaf : Operand) (closed arguments : Nat) (before : List Token) :
    openBracket? closed arguments (.operand leaf :: before) = openBracket? closed (max arguments 1) before :=
  openBracket?_cons (by simp [Token.kind?]) (by simp [Token.kind?]) (by simp [Token.kind?]) ..

theorem openBracket?_operator {kind : Kind} (h : kind.isFunction ∨ kind.isInfix ∨ kind = .negate)
    (closed arguments : Nat) (before : List Token) :
    openBracket? closed arguments (kind.token :: before) = openBracket? closed (max arguments 1) before := by
  apply openBracket?_cons
  all_goals
    cases kind <;> simp_all [Kind.token, Token.kind?, Kind.operator, Kind.isFunction, Kind.isInfix]

theorem openBracket?_rightParen (closed arguments : Nat) (before : List Token) :
    openBracket? closed arguments (Kind.rightParen.token :: before) = openBracket? (closed + 1) arguments before := rfl

theorem openBracket?_leftParen (closed arguments : Nat) (before : List Token) :
    openBracket? (closed + 1) arguments (Kind.leftParen.token :: before) = openBracket? closed arguments before := rfl

theorem openBracket?_found (arguments : Nat) (before : List Token) :
    openBracket? 0 arguments (Kind.leftParen.token :: before) = some (arguments, before) := rfl

theorem openBracket?_comma (arguments : Nat) (before : List Token) :
    openBracket? 0 arguments (Kind.comma.token :: before) = openBracket? 0 (arguments + 1) before := rfl

theorem openBracket?_deepComma (closed arguments : Nat) (before : List Token) :
    openBracket? (closed + 1) arguments (Kind.comma.token :: before) =
      openBracket? (closed + 1) (max arguments 1) before := rfl

end Call

/-- The commas of a phrase that stand in no bracket of it. -/
def Phrase.commas : Phrase → Nat
  | .arguments count => count - 1
  | _ => 0

theorem Derives.arguments_pos {count : Nat} {lexemes tokens : List Token}
    (h : Derives (.arguments count) lexemes tokens) : 0 < count := by
  cases h <;> omega

open Call

/-- Inside of a bracket that is closed later, the walk passes over a phrase as over one argument. -/
theorem Derives.openBracket?_closed {phrase : Phrase} {lexemes tokens : List Token}
    (h : Derives phrase lexemes tokens) (closed arguments : Nat) (before : List Token) :
    openBracket? (closed + 1) arguments (tokens.reverse ++ before) =
      openBracket? (closed + 1) (max arguments 1) before := by
  induction h generalizing closed arguments before with
  | operand leaf => exact openBracket?_operand leaf ..
  | group _ ih => rw [reverse_enclosed, openBracket?_rightParen, ih, openBracket?_leftParen]
  | call hf _ ih =>
    rw [List.cons_append, List.cons_append, reverse_cons_enclosed, openBracket?_rightParen, ih, openBracket?_leftParen,
      openBracket?_operator (.inl hf), Nat.max_assoc, Nat.max_self]
  | bare _ ih | single _ ih | one _ ih => exact ih ..
  | signed _ ih =>
    rw [List.reverse_cons, List.append_assoc, ih, List.singleton_append, openBracket?_operator (.inr (.inr rfl)),
      Nat.max_assoc, Nat.max_self]
  | chain hi _ _ ihf ihl =>
    rw [reverse_joined, ihl, openBracket?_operator (.inr (.inl hi)), ihf]
    simp only [Nat.max_assoc, Nat.max_self]
  | more _ _ ihf ihl =>
    rw [reverse_joined, ihl, openBracket?_deepComma, ihf]
    simp only [Nat.max_assoc, Nat.max_self]

/-- The walk back over a phrase counts one argument, and one more for each comma. -/
theorem Derives.openBracket?_eq {phrase : Phrase} {lexemes tokens : List Token} (h : Derives phrase lexemes tokens)
    (arguments : Nat) (before : List Token) :
    openBracket? 0 arguments (tokens.reverse ++ before) =
      openBracket? 0 (max arguments 1 + phrase.commas) before := by
  induction h generalizing arguments before with
  | operand leaf => exact openBracket?_operand leaf ..
  | group inner =>
    rw [reverse_enclosed, openBracket?_rightParen, inner.openBracket?_closed, openBracket?_leftParen]
    rfl
  | call hf inner =>
    rw [List.cons_append, List.cons_append, reverse_cons_enclosed, openBracket?_rightParen, inner.openBracket?_closed,
      openBracket?_leftParen, openBracket?_operator (.inl hf), Nat.max_assoc, Nat.max_self]
    rfl
  | bare _ ih | single _ ih | one _ ih => exact ih ..
  | signed _ ih =>
    rw [List.reverse_cons, List.append_assoc, ih, List.singleton_append, openBracket?_operator (.inr (.inr rfl))]
    congr 1
    simp only [Phrase.commas]
    omega
  | chain hi _ _ ihf ihl =>
    rw [reverse_joined, ihl, openBracket?_operator (.inr (.inl hi)), ihf]
    congr 1
    simp only [Phrase.commas]
    omega
  | more first _ ihf ihl =>
    rw [reverse_joined, ihl, openBracket?_comma, ihf]
    congr 1
    have := first.arguments_pos
    simp only [Phrase.commas]
    omega

end Formula
