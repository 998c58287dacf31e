import Formula.Proofs.Grammar
import Formula.Proofs.Tree
/-!
# The grammar with precedences

`Parses` is a grammar of the same definitions as `Derives`, with a tier for each precedence. Chains of operators
associate to the left, and a sign binds tighter than a power. What one grammar derives the other does
(`Derives.parses`, `Parses.derives`), with the same tokens, and `Parses` adds the tree of operators.
-/

namespace Formula

/-- The parts of a definition by how tight the operators between them bind. -/
inductive Tier
  | additive | multiplicative | power | signed | primary

namespace Tier

/-- The least precedence of the operators at a tier. -/
def rank : Tier → Int
  | additive => 1
  | multiplicative => 2
  | power => 3
  | signed => 4
  | primary => 5

/-- The tier of the parts that a part of some tier is made of. -/
def tighter? : Tier → Option Tier
  | additive => some multiplicative
  | multiplicative => some power
  | power => some signed
  | signed => some primary
  | primary => none

theorem rank_tighter {tier next : Tier} (h : tier.tighter? = some next) : next.rank = tier.rank + 1 := by
  cases tier <;> cases h <;> rfl

theorem rank_pos (tier : Tier) : 0 < tier.rank := by
  cases tier <;> decide

def phrase : Tier → Phrase
  | additive | multiplicative | power => .expression
  | signed => .term
  | primary => .primary

end Tier

/-- The tier of an operator that stands between its operands. -/
def Kind.tier? : Kind → Option Tier
  | .add | .subtract => some .additive
  | .multiply | .divide | .modulo => some .multiplicative
  | .power => some .power
  | _ => none

theorem Kind.rank_tier {kind : Kind} {tier : Tier} (h : kind.tier? = some tier) :
    kind.precedence = tier.rank := by
  cases kind <;> cases h <;> rfl

theorem Kind.isInfix_of_tier {kind : Kind} {tier : Tier} (h : kind.tier? = some tier) : kind.isInfix := by
  cases kind <;> first | rfl | cases h

theorem Kind.exists_tier {kind : Kind} (h : kind.isInfix) : ∃ tier, kind.tier? = some tier := by
  cases kind <;> first | exact ⟨_, rfl⟩ | cases h

theorem Kind.tier?_of_isFunction {kind : Kind} (h : kind.isFunction) : kind.tier? = none := by
  cases kind <;> first | rfl | cases h

theorem Kind.not_isFunction_of_isInfix {kind : Kind} (h : kind.isInfix) : ¬ kind.isFunction := by
  cases kind <;> first | decide | cases h

theorem Tier.phrase_of_tier {kind : Kind} {tier : Tier} (h : kind.tier? = some tier) :
    tier.phrase = .expression := by
  cases kind <;> cases h <;> rfl

theorem Kind.precedence_of_isFunction {kind : Kind} (h : kind.isFunction) :
    kind.precedence = Tier.primary.rank := by
  cases kind <;> first | rfl | cases h

theorem Kind.rank_le_of_tier {kind : Kind} {tier : Tier} (h : kind.tier? = some tier) : tier.rank ≤ 3 := by
  cases kind <;> cases h <;> decide

open Kind in
/-- What is parsed at a tier: a row of lexemes, the tokens that they stand for, and the tree of their operators. -/
inductive Parses : Tier → List Token → List Token → Tree → Prop
  | operand (leaf : Operand) : Parses .primary [.operand leaf] [.operand leaf] (.leaf leaf)
  | group {lexemes tokens : List Token} {tree : Tree} (inner : Parses .additive lexemes tokens tree) :
      Parses .primary (leftParen.token :: lexemes ++ [rightParen.token])
        (leftParen.token :: tokens ++ [rightParen.token]) tree
  | call {function : Kind} {lexemes tokens : List Token} {tree : Tree} (isFunction : function.isFunction)
      (arity : function.arity = 1) (argument : Parses .additive lexemes tokens tree) :
      Parses .primary (function.token :: leftParen.token :: lexemes ++ [rightParen.token])
        (function.token :: leftParen.token :: tokens ++ [rightParen.token]) (.unary function tree)
  | call₂ {function : Kind} {lexemes tokens lexemes' tokens' : List Token} {tree tree' : Tree}
      (isFunction : function.isFunction) (arity : function.arity = 2) (first : Parses .additive lexemes tokens tree)
      (second : Parses .additive lexemes' tokens' tree') :
      Parses .primary (function.token :: leftParen.token :: (lexemes ++ comma.token :: lexemes') ++ [rightParen.token])
        (function.token :: leftParen.token :: (tokens ++ comma.token :: tokens') ++ [rightParen.token])
        (.binary function tree tree')
  | sign {lexemes tokens : List Token} {tree : Tree} (primary : Parses .primary lexemes tokens tree) :
      Parses .signed (subtract.token :: lexemes) (negate.token :: tokens) (.unary .negate tree)
  | tighter {tier next : Tier} {lexemes tokens : List Token} {tree : Tree} (tighter : tier.tighter? = some next)
      (part : Parses next lexemes tokens tree) : Parses tier lexemes tokens tree
  /-- The left operand may be a chain of the same tier, the right one may not. -/
  | chain {operator : Kind} {tier next : Tier} {lexemes tokens lexemes' tokens' : List Token} {tree tree' : Tree}
      (tier_eq : operator.tier? = some tier) (tighter : tier.tighter? = some next)
      (left : Parses tier lexemes tokens tree) (right : Parses next lexemes' tokens' tree') :
      Parses tier (lexemes ++ operator.token :: lexemes') (tokens ++ operator.token :: tokens')
        (.binary operator tree tree')

/-! ## From tiers to the grammar without them -/

theorem Derives.join {operator : Kind} (hi : operator.isInfix) {phrase : Phrase}
    {lexemes tokens lexemes' tokens' : List Token} (first : Derives .expression lexemes tokens)
    (last : Derives phrase lexemes' tokens') (hp : phrase = .expression) :
    Derives .expression (lexemes ++ operator.token :: lexemes') (tokens ++ operator.token :: tokens') := by
  induction last with
  | operand | group | call | bare | signed | one | more => cases hp
  | single term => exact .chain hi first term
  | chain hi' _ last ih => simpa using Derives.chain hi' (ih rfl) last

theorem Parses.derives {tier : Tier} {lexemes tokens : List Token} {tree : Tree}
    (h : Parses tier lexemes tokens tree) : Derives tier.phrase lexemes tokens := by
  induction h with
  | operand leaf => exact .operand leaf
  | group _ ih => exact .group ih
  | call isFunction arity _ ih => exact .call isFunction (arity ▸ .one ih)
  | call₂ isFunction arity _ _ ihf ihs => exact .call isFunction (arity ▸ .more (.one ihf) ihs)
  | sign _ ih => exact .signed ih
  | @tighter tier next _ _ _ h _ ih =>
    cases tier <;> cases h
    · exact ih
    · exact ih
    · exact .single ih
    · exact .bare ih
  | @chain operator tier next _ _ _ _ _ _ htier h _ _ ihl ihr =>
    have hi := Kind.isInfix_of_tier htier
    rw [Tier.phrase_of_tier htier] at ihl ⊢
    cases tier with
    | additive | multiplicative => cases h; exact ihl.join hi ihr rfl
    | power => cases h; exact .chain hi ihl ihr
    | signed | primary => have := Kind.rank_le_of_tier htier; cases this

/-! ## From the grammar without tiers to trees -/

theorem Tier.eq_of_rank_eq {tier tier' : Tier} (h : tier.rank = tier'.rank) : tier = tier' := by
  cases tier <;> cases tier' <;> first | rfl | cases h

theorem Tier.exists_tighter {tier tier' : Tier} (h : tier.rank < tier'.rank) :
    ∃ next, tier.tighter? = some next := by
  cases tier with
  | additive | multiplicative | power | signed => exact ⟨_, rfl⟩
  | primary => cases tier' <;> cases h

/-- A part of one tier is also a part of every tier that binds less. -/
theorem Parses.widen {tier tier' : Tier} {lexemes tokens : List Token} {tree : Tree}
    (h : Parses tier lexemes tokens tree) (hl : tier'.rank ≤ tier.rank) : Parses tier' lexemes tokens tree := by
  obtain ⟨n, hn⟩ := Int.le.dest hl
  induction n generalizing tier' with
  | zero =>
    obtain rfl := Tier.eq_of_rank_eq (show tier'.rank = tier.rank by omega)
    exact h
  | succ n ih =>
    obtain ⟨next, hnext⟩ := Tier.exists_tighter (show tier'.rank < tier.rank by omega)
    have := Tier.rank_tighter hnext
    exact .tighter hnext (ih (by omega) (by omega))

/-- One more operator and operand behind a part are parsed at the same tier, where the part ends in an operand of the
new operator. -/
theorem Parses.extend {tier tier' : Tier} {lexemes tokens lexemes' tokens' : List Token} {tree tree' : Tree}
    (h : Parses tier lexemes tokens tree) {operator : Kind} (htier : operator.tier? = some tier')
    (hl : tier.rank ≤ tier'.rank) (last : Parses .signed lexemes' tokens' tree') :
    ∃ tree'', Parses tier (lexemes ++ operator.token :: lexemes') (tokens ++ operator.token :: tokens') tree'' := by
  have hrank := Kind.rank_le_of_tier htier
  have hsigned : Tier.signed.rank = 4 := rfl
  induction h with
  | operand | group | call | call₂ | sign => exact absurd (Int.le_trans hl hrank) (by decide)
  | @tighter tier next _ _ _ h part ih =>
    have hnext := Tier.rank_tighter h
    by_cases hl' : next.rank ≤ tier'.rank
    · obtain ⟨tree'', hp⟩ := ih hl'
      exact ⟨tree'', .tighter h hp⟩
    · obtain rfl := Tier.eq_of_rank_eq (show tier.rank = tier'.rank by omega)
      exact ⟨_, .chain htier h (.tighter h part) (last.widen (by omega))⟩
  | @chain operator' tier next _ _ _ _ _ _ htier' h left right _ ihr =>
    have hnext := Tier.rank_tighter h
    -- A tighter operator takes its left operand from the right end of the chain; any other takes the chain.
    by_cases hl' : next.rank ≤ tier'.rank
    · obtain ⟨tree'', hp⟩ := ihr hl'
      exact ⟨_, by simpa using Parses.chain htier' h left hp⟩
    · obtain rfl := Tier.eq_of_rank_eq (show tier.rank = tier'.rank by omega)
      exact ⟨_, .chain htier h (.chain htier' h left right) (last.widen (by omega))⟩

/-- What is derived has a tree. Arguments have one each, and are needed for one or two. -/
def Phrase.Parsed : Phrase → List Token → List Token → Prop
  | .primary, lexemes, tokens => ∃ tree, Parses .primary lexemes tokens tree
  | .term, lexemes, tokens => ∃ tree, Parses .signed lexemes tokens tree
  | .expression, lexemes, tokens | .arguments 1, lexemes, tokens => ∃ tree, Parses .additive lexemes tokens tree
  | .arguments 2, lexemes, tokens => ∃ first first' second second' tree tree',
      Parses .additive first first' tree ∧ Parses .additive second second' tree' ∧
        lexemes = first ++ Kind.comma.token :: second ∧ tokens = first' ++ Kind.comma.token :: second'
  | .arguments _, _, _ => True

theorem Derives.parsed {phrase : Phrase} {lexemes tokens : List Token} (h : Derives phrase lexemes tokens) :
    phrase.Parsed lexemes tokens := by
  induction h with
  | operand leaf => exact ⟨_, .operand leaf⟩
  | group _ ih =>
    obtain ⟨tree, hp⟩ := ih
    exact ⟨tree, .group hp⟩
  | @call function _ _ isFunction _ ih =>
    rcases Kind.arity_eq_one_or_two function with arity | arity <;> rw [arity] at ih
    · obtain ⟨tree, hp⟩ := ih
      exact ⟨_, .call isFunction arity hp⟩
    · obtain ⟨_, _, _, _, _, _, first, second, rfl, rfl⟩ := ih
      exact ⟨_, .call₂ isFunction arity first second⟩
  | bare _ ih =>
    obtain ⟨tree, hp⟩ := ih
    exact ⟨tree, .tighter rfl hp⟩
  | signed _ ih =>
    obtain ⟨tree, hp⟩ := ih
    exact ⟨_, .sign hp⟩
  | single _ ih =>
    obtain ⟨tree, hp⟩ := ih
    exact ⟨tree, hp.widen (by decide)⟩
  | chain isInfix _ _ ihf ihl =>
    obtain ⟨_, first⟩ := ihf
    obtain ⟨_, last⟩ := ihl
    obtain ⟨tier, htier⟩ := Kind.exists_tier isInfix
    exact first.extend htier tier.rank_pos last
  | one _ ih => exact ih
  | @more count _ _ _ _ first _ ihf ihl =>
    match count with
    | 0 => exact absurd first.arguments_pos (Nat.lt_irrefl 0)
    | 1 =>
      obtain ⟨_, hf⟩ := ihf
      obtain ⟨_, hl⟩ := ihl
      exact ⟨_, _, _, _, _, _, hf, hl, rfl, rfl⟩
    | _ + 2 => trivial

theorem Derives.parses {lexemes tokens : List Token} (h : Derives .expression lexemes tokens) :
    ∃ tree, Parses .additive lexemes tokens tree :=
  h.parsed

/-! ## The trees of the grammar -/

theorem Parses.wellFormed {tier : Tier} {lexemes tokens : List Token} {tree : Tree}
    (h : Parses tier lexemes tokens tree) : tree.WellFormed := by
  induction h with
  | operand => trivial
  | group _ ih | tighter _ _ ih => exact ih
  | call isFunction arity _ ih => exact ⟨Kind.isGrouping_of_isFunction isFunction, arity, ih⟩
  | call₂ isFunction arity _ _ ihf ihs => exact ⟨Kind.isGrouping_of_isFunction isFunction, arity, ihf, ihs⟩
  | sign _ ih => exact ⟨rfl, rfl, ih⟩
  | chain htier _ _ _ ihl ihr =>
    have hi := Kind.isInfix_of_tier htier
    exact ⟨Kind.isGrouping_of_isInfix hi, Kind.arity_of_isInfix hi, ihl, ihr⟩

theorem Parses.operand_mem_iff {tier : Tier} {lexemes tokens : List Token} {tree : Tree}
    (h : Parses tier lexemes tokens tree) (leaf : Operand) :
    (.operand leaf ∈ tree.postorder ↔ .operand leaf ∈ lexemes) ∧
      (.operand leaf ∈ tree.postorder ↔ .operand leaf ∈ tokens) := by
  induction h with
  | operand => simp [Tree.postorder]
  | group _ ih => simpa [Kind.token] using ih
  | tighter _ _ ih => exact ih
  | call _ _ _ ih | sign _ ih => simpa [Tree.postorder, Kind.token] using ih
  | call₂ _ _ _ _ ihl ihr | chain _ _ _ _ ihl ihr =>
    simp only [Tree.postorder, Kind.token, List.mem_append, List.mem_cons, List.not_mem_nil, reduceCtorEq, or_false,
      false_or]
    exact ⟨or_congr ihl.1 ihr.1, or_congr ihl.2 ihr.2⟩

end Formula
