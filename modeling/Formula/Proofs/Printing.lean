import Formula.Proofs.Compilation
/-!
# Trees as text

`Tree.print` writes a tree with as few brackets as the precedences of its operators allow, and with any number of
others around its parts. What it writes compiles to the listing of the tree it was given (`compile_print`), so every
tree has a text, and no bracket that is left out was needed.
-/

namespace Formula

/-! ## The text of a tree -/

/-- A text in so many brackets. -/
def bracketed : Nat → List Char → List Char
  | 0, text => text
  | n + 1, text => '(' :: (bracketed n text ++ [')'])

/-- The operands that definitions write: the variable, the constant, and numbers. -/
inductive Operand.IsSpelled : Operand → Prop
  | x : IsSpelled .x
  | pi : IsSpelled .pi
  /-- Digits, with at most one point among them. -/
  | number {run : List Char} (numerals : run.all Lexeme.isNumeral) (points : run.count '.' ≤ 1)
      (digits : run.any Char.isDigit) : IsSpelled (Lexeme.literal run)

/-- The way from an operator to one of its operands. A single operand is the left one. -/
inductive Side
  | left | right
deriving DecidableEq

namespace Tree

/-- The operands are spelled in definitions, and the operators are signs, operators between two operands, and functions
with as many arguments as they take. -/
def Expressible : Tree → Prop
  | leaf operand => operand.IsSpelled
  | unary kind child => (kind = .negate ∨ kind.isFunction ∧ kind.arity = 1) ∧ child.Expressible
  | binary kind left right =>
    (kind.isInfix ∨ kind.isFunction ∧ kind.arity = 2) ∧ left.Expressible ∧ right.Expressible

/-- The tree is an operator between two operands, with a precedence of some sort. -/
def isOperation (sort : Int → Bool) : Tree → Bool
  | binary kind _ _ => kind.isInfix && sort kind.precedence
  | _ => false

def isSigned : Tree → Bool
  | unary kind _ => kind = .negate
  | _ => false

/-- A tree as text. A left operand stands in brackets if it binds less than its operator, a right one also if it binds
as much, and one behind a sign if it is an operation or signed itself; arguments need none. The part at each place
stands in as many more brackets as `spare` says. -/
def print (spare : List Side → Nat) : Tree → List Char
  | leaf operand => bracketed (spare []) operand.spelling.toList
  | unary kind child =>
    let inner := child.print fun place => spare (.left :: place)
    bracketed (spare []) <|
      if kind.isFunction then kind.spelling.toList ++ bracketed 1 inner
      else kind.spelling.toList ++ bracketed (child.isOperation (fun _ => true) || child.isSigned).toNat inner
  | binary kind left right =>
    let first := left.print fun place => spare (.left :: place)
    let second := right.print fun place => spare (.right :: place)
    bracketed (spare []) <|
      if kind.isFunction then
        kind.spelling.toList ++ bracketed 1 (first ++ (Kind.comma.spelling.toList ++ second))
      else
        bracketed (left.isOperation (· < kind.precedence)).toNat first ++
          (kind.spelling.toList ++ bracketed (right.isOperation (· ≤ kind.precedence)).toNat second)

/-! ## The tier of a tree -/

/-- The tier of the text of a tree, if no brackets stand around it. -/
def tier : Tree → Tier
  | leaf _ => .primary
  | unary kind _ => if kind = .negate then .signed else .primary
  | binary kind _ _ => kind.tier?.getD .primary

/-- A tree that is no operation of some precedences is of a tier that binds as tight as all others. -/
theorem le_rank_tier {tree : Tree} {sort : Int → Bool} (h : tree.isOperation sort = false) {rank : Int}
    (hl : rank ≤ 4) (hs : ∀ precedence, sort precedence = false → rank ≤ precedence) : rank ≤ tree.tier.rank := by
  cases tree with
  | leaf => exact Int.le_trans hl (show (4 : Int) ≤ Tier.primary.rank by decide)
  | unary kind _ =>
    rw [tier]
    split
    · exact hl
    · exact Int.le_trans hl (by decide)
  | binary kind _ _ =>
    rw [tier]
    cases htier : kind.tier? with
    | none => exact Int.le_trans hl (by decide)
    | some tier =>
      rw [isOperation, Kind.isInfix_of_tier htier, Bool.true_and] at h
      have := hs _ h
      rwa [Kind.rank_tier htier] at this

theorem tier_eq_primary {tree : Tree} (ho : tree.isOperation (fun _ => true) = false) (hs : tree.isSigned = false) :
    tree.tier = .primary := by
  cases tree with
  | leaf => rfl
  | unary kind _ =>
    have : kind ≠ .negate := by simpa [isSigned] using hs
    rw [tier, if_neg this]
  | binary kind _ _ =>
    rw [isOperation, Bool.and_true] at ho
    cases htier : kind.tier? with
    | none => rw [tier, htier, Option.getD_none]
    | some tier =>
      have := Kind.isInfix_of_tier htier
      rw [ho] at this
      cases this

end Tree

/-! ## Texts of a tier -/

/-- A text is cut into lexemes that are a part of some tier, with a tree. -/
def Spells (tier : Tier) (text : List Char) (tree : Tree) : Prop :=
  ∃ lexemes tokens, Lexeme.Cuts text lexemes ∧ Parses tier lexemes tokens tree

theorem Lexeme.cuts_spelling {token : Token} (member : token ∈ Token.catalog) :
    Lexeme.Cuts token.spelling.toList [token] := by
  have reads : Lexeme.Reads token.spelling.toList [] token := Lexeme.reads_spelling member rfl
  simpa using Lexeme.Cuts.lexeme reads .nil

/-- The name of a function is read up to the bracket behind it. -/
theorem Lexeme.Cuts.called {function : Kind} (h : function.isFunction) {text : List Char} {tokens : List Token}
    (hc : Lexeme.Cuts text tokens) :
    Lexeme.Cuts (function.spelling.toList ++ bracketed 1 text)
      (function.token :: (Kind.leftParen.token :: tokens ++ [Kind.rightParen.token])) := by
  have member : function.token ∈ Token.catalog := by
    refine Kind.token_mem_catalog ?_
    rintro rfl
    cases h
  exact .lexeme (Lexeme.reads_spelling member (Lexeme.breaks_symbol .leftParen rfl _)) (hc.enclosed .nil)

namespace Spells

variable {tier tier' : Tier} {text text' : List Char} {tree tree' : Tree}

theorem leaf {operand : Operand} (h : operand.IsSpelled) :
    Spells .primary operand.spelling.toList (.leaf operand) := by
  refine ⟨[.operand operand], _, ?_, .operand operand⟩
  cases h with
  | x =>
    have member : Token.operand .x ∈ Token.catalog := by decide
    exact Lexeme.cuts_spelling member
  | pi =>
    have member : Token.operand .pi ∈ Token.catalog := by decide
    exact Lexeme.cuts_spelling member
  | @number run numerals points digits =>
    have reads : Lexeme.Reads run [] (.operand (Lexeme.literal run)) := .number numerals rfl points digits
    simpa [Lexeme.literal] using Lexeme.Cuts.lexeme reads .nil

theorem widen (h : Spells tier text tree) (hl : tier'.rank ≤ tier.rank) : Spells tier' text tree := by
  obtain ⟨lexemes, tokens, hc, hp⟩ := h
  exact ⟨lexemes, tokens, hc, hp.widen hl⟩

theorem enclosed (h : Spells .additive text tree) : Spells .primary (bracketed 1 text) tree := by
  obtain ⟨lexemes, tokens, hc, hp⟩ := h
  exact ⟨_, _, hc.enclosed .nil, .group hp⟩

/-- A text in brackets is one of every tier. -/
theorem wrap (h : Spells tier text tree) {n : Nat} (hn : n = 0 → tier'.rank ≤ tier.rank) :
    Spells tier' (bracketed n text) tree := by
  induction n generalizing tier' with
  | zero => exact h.widen (hn rfl)
  | succ n ih =>
    have inner : Spells .additive (bracketed n text) tree := ih fun _ => tier.rank_pos
    refine inner.enclosed.widen ?_
    cases tier' <;> decide

theorem signed (h : Spells .primary text tree) :
    Spells .signed (Kind.negate.spelling.toList ++ text) (.unary .negate tree) := by
  obtain ⟨lexemes, tokens, hc, hp⟩ := h
  exact ⟨_, _, .lexeme (Lexeme.reads_symbol .subtract rfl text) hc, .sign hp⟩

theorem call {function : Kind} (isFunction : function.isFunction) (arity : function.arity = 1)
    (h : Spells .additive text tree) :
    Spells .primary (function.spelling.toList ++ bracketed 1 text) (.unary function tree) := by
  obtain ⟨lexemes, tokens, hc, hp⟩ := h
  exact ⟨_, _, hc.called isFunction, .call isFunction arity hp⟩

theorem call₂ {function : Kind} (isFunction : function.isFunction) (arity : function.arity = 2)
    (h : Spells .additive text tree) (h' : Spells .additive text' tree') :
    Spells .primary
      (function.spelling.toList ++ bracketed 1 (text ++ (Kind.comma.spelling.toList ++ text')))
      (.binary function tree tree') := by
  obtain ⟨lexemes, tokens, hc, hp⟩ := h
  obtain ⟨lexemes', tokens', hc', hp'⟩ := h'
  exact ⟨_, _, (hc.joined .comma rfl hc').called isFunction, .call₂ isFunction arity hp hp'⟩

theorem chain {operator : Kind} {next : Tier} (htier : operator.tier? = some tier) (hnext : tier.tighter? = some next)
    (h : Spells tier text tree) (h' : Spells next text' tree') :
    Spells tier (text ++ (operator.spelling.toList ++ text')) (.binary operator tree tree') := by
  obtain ⟨lexemes, tokens, hc, hp⟩ := h
  obtain ⟨lexemes', tokens', hc', hp'⟩ := h'
  have symbol : operator.isSymbol := by
    rw [Kind.isSymbol, Kind.isInfix_of_tier htier, Bool.true_or]
  exact ⟨_, _, hc.joined operator symbol hc', .chain htier hnext hp hp'⟩

end Spells

/-! ## Printing and compiling -/

/-- The text of a tree is one of the tier of the tree. -/
theorem Tree.spells_print {tree : Tree} (h : tree.Expressible) (spare : List Side → Nat) :
    Spells tree.tier (tree.print spare) tree := by
  induction tree generalizing spare with
  | leaf operand => exact (Spells.leaf h).wrap fun _ => Int.le_refl _
  | unary kind child ih =>
    obtain ⟨hk, hc⟩ := h
    have inner := ih hc fun place => spare (.left :: place)
    suffices bare : Spells (unary kind child).tier _ (unary kind child) from bare.wrap fun _ => Int.le_refl _
    rcases hk with rfl | ⟨hf, ha⟩
    · -- Behind a sign, what is neither an operation nor signed is a primary and needs no brackets.
      refine Spells.signed (inner.wrap fun h0 => ?_)
      have bare : (child.isOperation (fun _ => true) || child.isSigned) = false := Bool.toNat_eq_zero.1 h0
      rw [Bool.or_eq_false_iff] at bare
      rw [tier_eq_primary bare.1 bare.2]
    · have hn : kind ≠ .negate := by
        rintro rfl
        cases hf
      rw [if_pos hf, tier, if_neg hn]
      exact Spells.call hf ha (inner.widen (Tier.rank_pos _))
  | binary kind left right ihl ihr =>
    obtain ⟨hk, hl, hr⟩ := h
    have first := ihl hl fun place => spare (.left :: place)
    have second := ihr hr fun place => spare (.right :: place)
    suffices bare : Spells (binary kind left right).tier _ (binary kind left right) from
      bare.wrap fun _ => Int.le_refl _
    rcases hk with hi | ⟨hf, ha⟩
    · obtain ⟨tier, htier⟩ := Kind.exists_tier hi
      have hrank := Kind.rank_tier htier
      have hle := Kind.rank_le_of_tier htier
      obtain ⟨next, hnext⟩ := Tier.exists_tighter (show tier.rank < Tier.signed.rank by rw [Tier.rank]; omega)
      have hnextRank := Tier.rank_tighter hnext
      rw [if_neg (Kind.not_isFunction_of_isInfix hi), Tree.tier, htier, Option.getD_some]
      refine Spells.chain htier hnext (first.wrap fun h0 => ?_) (second.wrap fun h0 => ?_)
      · refine le_rank_tier (Bool.toNat_eq_zero.1 h0) (by omega) fun precedence hp => ?_
        have := of_decide_eq_false hp
        omega
      · refine le_rank_tier (Bool.toNat_eq_zero.1 h0) (by omega) fun precedence hp => ?_
        have := of_decide_eq_false hp
        omega
    · rw [if_pos hf, Tree.tier, Kind.tier?_of_isFunction hf, Option.getD_none]
      exact Spells.call₂ hf ha (first.widen (Tier.rank_pos _)) (second.widen (Tier.rank_pos _))

/-- What is printed of a tree compiles to the listing of the tree, with redundant brackets and without. -/
theorem compile_print {tree : Tree} (h : tree.Expressible) (spare : List Side → Nat) :
    ∃ compiled, (compile (String.ofList (tree.print spare))).outcome = .ok compiled ∧ compiled.isValid ∧
      compiled.code = tree.postorder := by
  obtain ⟨lexemes, tokens, hc, hp⟩ := tree.spells_print h spare
  have hc : Lexeme.Cuts (String.ofList (tree.print spare)).toList lexemes := by
    rw [String.toList_ofList]
    exact hc
  exact ⟨.ofTree _ tree, by rw [compile_of_parses hc (hp.widen (Tier.rank_pos _))], isValid_ofTree _ tree, rfl⟩

/-- A sign before a power in brackets, a subtraction and a sign next to each other, and brackets around an argument. -/
theorem compile_print_signs :
    ∃ compiled, (compile "-(x^2)--atan2(1.5,(x))").outcome = .ok compiled ∧ compiled.isValid ∧
      compiled.code = [.operand .x, .operand (Lexeme.literal ['2']), Kind.power.token, Kind.negate.token,
        .operand (Lexeme.literal ['1', '.', '5']), .operand .x, Kind.atan2.token, Kind.negate.token,
        Kind.subtract.token] := by
  have square : Tree.Expressible (.unary .negate (.binary .power (.leaf .x) (.leaf (Lexeme.literal ['2'])))) :=
    ⟨.inl rfl, .inl rfl, .x, .number (by decide) (by decide) (by decide)⟩
  have angle : Tree.Expressible
      (.unary .negate (.binary .atan2 (.leaf (Lexeme.literal ['1', '.', '5'])) (.leaf .x))) :=
    ⟨.inl rfl, .inr ⟨rfl, rfl⟩, .number (by decide) (by decide) (by decide), .x⟩
  have difference : Tree.Expressible (.binary .subtract _ _) := ⟨.inl rfl, square, angle⟩
  have h := compile_print difference fun place => if place = [.right, .left, .right] then 1 else 0
  rwa [show String.ofList _ = "-(x^2)--atan2(1.5,(x))" by decide] at h

end Formula
