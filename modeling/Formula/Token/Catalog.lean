import Formula.Token.Basic
/-!
# The catalog

The tokens that have a fixed spelling. Unary minus shares its spelling with subtraction, so it is not in the
catalog; the place where a minus stands tells the two apart.
-/

namespace Formula

namespace Kind

def spelling : Kind → String
  | .add => "+"
  | .subtract | .negate => "-"
  | .multiply => "*"
  | .divide => "/"
  | .modulo => "%"
  | .power => "^"
  | .leftParen => "("
  | .rightParen => ")"
  | .comma => ","
  | .sin => "sin"
  | .cos => "cos"
  | .tan => "tan"
  | .asin => "asin"
  | .acos => "acos"
  | .atan => "atan"
  | .atan2 => "atan2"
  | .sqrt => "sqrt"
  | .pow => "pow"
  | .exp => "exp"
  | .expm1 => "expm1"
  | .log => "log"
  | .log1p => "log1p"
  | .log10 => "log10"
  | .abs => "abs"
  | .floor => "floor"
  | .ceil => "ceil"
  | .rint => "rint"

/-- The number of operands. A grouping operator is never applied and counts as taking one. -/
def arity : Kind → Nat
  | .add | .subtract | .multiply | .divide | .modulo | .power | .atan2 | .pow => 2
  | _ => 1

/-- Brackets and commas bind least, functions most, and unary minus tighter than a power. -/
def precedence : Kind → Int
  | .leftParen | .rightParen | .comma => 0
  | .add | .subtract => 1
  | .multiply | .divide | .modulo => 2
  | .power => 3
  | .negate => 4
  | _ => 5

def isFunction : Kind → Bool
  | .sin | .cos | .tan | .asin | .acos | .atan | .atan2 | .sqrt | .pow | .exp | .expm1 | .log | .log1p | .log10
  | .abs | .floor | .ceil | .rint => true
  | _ => false

/-- The operator of a kind as definitions use it. -/
def operator (kind : Kind) : Operator :=
  { kind, spelling := kind.spelling, arity := kind.arity, precedence := kind.precedence
    isFunction := kind.isFunction }

end Kind

namespace Operand

def x : Operand := ⟨"x", none⟩

/-- The double nearest to the ratio of a circle's circumference to its diameter. -/
def pi : Operand := ⟨"pi", some 3.141592653589793⟩

end Operand

namespace Token

def negate : Token := .operator Kind.negate.operator

/-- The tokens with a fixed spelling: operands, binary operators, grouping operators, functions. -/
def catalog : List Token :=
  [.operand .x, .operand .pi] ++
    ([.add, .subtract, .multiply, .divide, .modulo, .power, .leftParen, .rightParen, .comma,
      .sin, .cos, .tan, .asin, .acos, .atan, .atan2, .sqrt, .pow, .exp, .expm1, .log, .log1p, .log10,
      .abs, .floor, .ceil, .rint] : List Kind).map fun kind => .operator kind.operator

/-- The catalog in the order in which its spellings are tried: a longer one first, so that one that continues
another wins, and spellings of one length in the order of the catalog. -/
def byLength : List Token :=
  [5, 4, 3, 2, 1].flatMap fun length => catalog.filter fun token => token.spelling.length = length

/-- Whether a text begins with a spelling, in letters of either case. No character outside ASCII is a form of a
letter that spellings use, so the case of ASCII letters is all that counts. -/
def begins (spelling : String) (text : List Char) : Bool :=
  (text.take spelling.length).map Char.toLower = spelling.toList

def first? (text : List Char) : Option Token :=
  byLength.find? fun token => begins token.spelling text

def lookup? (definition : String) (position : Nat) : Option Token :=
  first? (definition.toList.drop position)

theorem length_byLength : byLength.length = catalog.length := by decide

theorem mem_byLength {token : Token} : token ∈ byLength ↔ token ∈ catalog := by
  have lengths : ∀ token ∈ catalog, token.spelling.length ∈ [5, 4, 3, 2, 1] := by decide
  simp only [byLength, List.mem_flatMap, List.mem_filter, decide_eq_true_eq]
  exact ⟨fun ⟨_, _, member, _⟩ => member, fun member => ⟨_, lengths token member, member, rfl⟩⟩

end Token

end Formula
