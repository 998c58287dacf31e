import Formula.Proofs.Compilation
/-!
# Putting a definition in the place of the variable

Where the variable of a definition is written, another definition can be written instead, in brackets. The text that
comes of it has the lexemes (`Lexeme.Cuts.substitute`), the grammar (`Parses.substitute`) and the tree
(`Tree.value_substitute`) that one expects, so it is accepted and computes the composition of the two functions.
-/

namespace Formula

/-! ## Texts -/

/-- A text with `inner` in brackets for each token that is the variable. Other tokens that are written with an `x`,
and all that follows a fault, stay as they are. -/
def substitute (inner : List Char) : List Char → List Char
  | [] => []
  | c :: rest =>
    if Text.isBlank c then c :: substitute inner rest
    else
      match Lexeme.read c rest with
      | .error _ => c :: rest
      | .ok (token, more) =>
        (if token.isVariable then '(' :: inner ++ [')'] else c :: rest.take more) ++ substitute inner (rest.drop more)
termination_by text => text.length
decreasing_by all_goals simp only [List.length_drop, List.length_cons]; omega

namespace Lexeme

theorem substitute_blank (inner : List Char) {c : Char} (hb : Text.isBlank c) (rest : List Char) :
    substitute inner (c :: rest) = c :: substitute inner rest := by
  rw [substitute, if_pos hb]

theorem substitute_lexeme (inner : List Char) {chars rest : List Char} {token : Token} (h : Reads chars rest token) :
    substitute inner (chars ++ rest) =
      (if token.isVariable then '(' :: inner ++ [')'] else chars) ++ substitute inner rest := by
  obtain ⟨c, chars, rfl⟩ := List.exists_cons_of_ne_nil h.not_blank.1
  have hb : ¬ Text.isBlank c := by simp [h.not_blank.2 c]
  rw [List.cons_append, substitute, if_neg hb]
  simp only [read_of_reads h, List.take_left, List.drop_left]

/-- Up to the first variable a text stays as it is, and what follows then begins with a bracket. -/
theorem Cuts.substitute_cases (inner : List Char) {text : List Char} {tokens : List Token} (h : Cuts text tokens) :
    ∃ next rest rest', text = next ++ rest ∧ substitute inner text = next ++ rest' ∧ rest'.head?.all breaks := by
  induction h with
  | nil => exact ⟨[], [], [], rfl, by rw [substitute]; rfl, rfl⟩
  | @blank c _ _ hb _ ih =>
    obtain ⟨next, rest, rest', rfl, hs, hr⟩ := ih
    exact ⟨c :: next, rest, rest', rfl, by rw [substitute_blank inner hb, hs]; rfl, hr⟩
  | @lexeme chars text token _ reads _ ih =>
    by_cases hv : token.isVariable
    · refine ⟨[], chars ++ text, '(' :: (inner ++ ')' :: substitute inner text), rfl, ?_, ?_⟩
      · rw [substitute_lexeme inner reads, if_pos hv]
        simp
      · exact breaks_symbol .leftParen rfl _
    · obtain ⟨next, rest, rest', rfl, hs, hr⟩ := ih
      refine ⟨chars ++ next, rest, rest', (List.append_assoc ..).symm, ?_, hr⟩
      rw [substitute_lexeme inner reads, if_neg hv, hs, List.append_assoc]

end Lexeme

/-! ## Tokens -/

/-- The tokens that stand for a token once the variable stands for the tokens `inner` in brackets. -/
def Token.substitute (inner : List Token) (token : Token) : List Token :=
  if token.isVariable then Kind.leftParen.token :: inner ++ [Kind.rightParen.token] else [token]

@[simp] theorem substitute_token (inner : List Token) (kind : Kind) :
    kind.token.substitute inner = [kind.token] := rfl

theorem Lexeme.Cuts.substitute {inner text : List Char} {lexemes' lexemes : List Token}
    (hi : Lexeme.Cuts inner lexemes') (h : Lexeme.Cuts text lexemes) :
    Lexeme.Cuts (Formula.substitute inner text) (lexemes.flatMap (Token.substitute lexemes')) := by
  induction h with
  | nil =>
    rw [Formula.substitute]
    exact .nil
  | blank hb _ ih =>
    rw [Lexeme.substitute_blank inner hb]
    exact .blank hb ih
  | @lexeme chars rest token tokens reads cuts ih =>
    rw [Lexeme.substitute_lexeme inner reads, List.flatMap_cons, Token.substitute]
    by_cases hv : token.isVariable
    · rw [if_pos hv, if_pos hv]
      simpa using hi.enclosed ih
    · -- What follows the lexeme changes behind a bracket at most, which no lexeme runs into.
      rw [if_neg hv, if_neg hv]
      obtain ⟨next, rest, rest', rfl, hs, hr⟩ := cuts.substitute_cases inner
      rw [hs] at ih ⊢
      exact .lexeme (reads.splice hr) ih

/-! ## Trees -/

namespace Tree

def substitute : Tree → Tree → Tree
  | leaf operand, inner => if operand.isVariable then inner else leaf operand
  | unary kind child, inner => unary kind (child.substitute inner)
  | binary kind left right, inner => binary kind (left.substitute inner) (right.substitute inner)

theorem valueAt_of_isVariable {operand : Operand} (h : operand.isVariable) (x : Float) : operand.valueAt x = x := by
  rw [Operand.isVariable, Option.isNone_iff_eq_none] at h
  rw [Operand.valueAt, h, Option.getD_none]

theorem valueAt_of_not_isVariable {operand : Operand} (h : ¬ operand.isVariable) (x y : Float) :
    operand.valueAt x = operand.valueAt y := by
  rw [Operand.isVariable, Option.isNone_iff_eq_none] at h
  obtain ⟨value, hv⟩ := Option.ne_none_iff_exists'.1 h
  rw [Operand.valueAt, Operand.valueAt, hv, Option.getD_some, Option.getD_some]

/-- The value of a tree with another one in the place of the variable is that of the outer tree where the variable is
the value of the inner one. -/
theorem value_substitute (inner tree : Tree) (x : Float) :
    (tree.substitute inner).value x = tree.value (inner.value x) := by
  induction tree with
  | leaf operand =>
    rw [substitute, value]
    by_cases hv : operand.isVariable
    · rw [if_pos hv, valueAt_of_isVariable hv]
    · rw [if_neg hv, value]
      exact valueAt_of_not_isVariable hv ..
  | unary kind child ih => rw [substitute, value, value, ih]
  | binary kind left right ihl ihr => rw [substitute, value, value, ihl, ihr]

/-- A tree with the variable in it is undefined where the variable is. -/
theorem value_undefined {tree : Tree} {operand : Operand} (hm : .operand operand ∈ tree.postorder)
    (hv : operand.isVariable) {x : Float} (hx : x.isNaN) : tree.value x = Number.undefined := by
  induction tree with
  | leaf operand' =>
    obtain rfl : operand = operand' := by simpa [postorder] using hm
    rw [value, valueAt_of_isVariable hv]
    exact Number.eq_undefined hx
  | unary kind child ih =>
    simp only [postorder, Kind.token, List.mem_append, List.mem_singleton, reduceCtorEq, or_false] at hm
    rw [value, ih hm]
    exact result_undefined (by simp) Number.isNaN_undefined
  | binary kind left right ihl ihr =>
    simp only [postorder, Kind.token, List.mem_append, List.mem_singleton, reduceCtorEq, or_false] at hm
    rw [value]
    rcases hm with hm | hm
    · rw [ihl hm]
      exact result_undefined (by simp) Number.isNaN_undefined
    · rw [ihr hm]
      exact result_undefined (by simp) Number.isNaN_undefined

end Tree

theorem Parses.substitute {tier : Tier} {lexemes tokens lexemes' tokens' : List Token} {tree tree' : Tree}
    (hi : Parses .additive lexemes' tokens' tree') (h : Parses tier lexemes tokens tree) :
    Parses tier (lexemes.flatMap (Token.substitute lexemes')) (tokens.flatMap (Token.substitute tokens'))
      (tree.substitute tree') := by
  induction h with
  | operand leaf =>
    rw [List.flatMap_singleton, List.flatMap_singleton, Token.substitute, Token.substitute, Token.isVariable,
      Tree.substitute]
    by_cases hv : leaf.isVariable
    · rw [if_pos hv, if_pos hv, if_pos hv]
      exact .group hi
    · rw [if_neg hv, if_neg hv, if_neg hv]
      exact .operand leaf
  | group _ ih => simpa using Parses.group ih
  | call isFunction arity _ ih => simpa [Tree.substitute] using Parses.call isFunction arity ih
  | call₂ isFunction arity _ _ ihf ihs => simpa [Tree.substitute] using Parses.call₂ isFunction arity ihf ihs
  | sign _ ih => simpa [Tree.substitute] using Parses.sign ih
  | tighter h _ ih => exact .tighter h ih
  | chain htier h _ _ ihl ihr => simpa [Tree.substitute] using Parses.chain htier h ihl ihr

/-! ## Composition -/

/-- A definition with another one in the place of the variable is accepted, and computes the composition of the two. -/
theorem evaluate_substitute {outer inner : String} {tokens tokens' : List Token} (ho : tokenize outer = .ok tokens)
    (hi : tokenize inner = .ok tokens') (hv : tokens.any Token.isVariable) :
    (∃ tokens'', tokenize (String.ofList (substitute inner.toList outer.toList)) = .ok tokens'') ∧
      ∃ f g h, (compile outer).outcome = .ok f ∧ (compile inner).outcome = .ok g ∧
        (compile (String.ofList (substitute inner.toList outer.toList))).outcome = .ok h ∧
        ∀ x : Float, ∃ y z, (g.evaluate x).outcome = .ok y ∧ (f.evaluate y).outcome = .ok z ∧
          (h.evaluate x).outcome = .ok z := by
  obtain ⟨lexemes, f, hcf, hpf⟩ := exists_parses ho
  obtain ⟨lexemes', g, hcg, hpg⟩ := exists_parses hi
  have hch : Lexeme.Cuts (String.ofList (substitute inner.toList outer.toList)).toList
      (lexemes.flatMap (Token.substitute lexemes')) := by
    rw [String.toList_ofList]
    exact hcg.substitute hcf
  have hph := hpg.substitute hpf
  obtain ⟨leaf, hm, hleaf⟩ : ∃ leaf, .operand leaf ∈ f.postorder ∧ leaf.isVariable := by
    obtain ⟨token, hm, ht⟩ := List.any_eq_true.1 hv
    cases token with
    | operand leaf => exact ⟨leaf, (hpf.operand_mem_iff leaf).2.2 hm, ht⟩
    | operator => cases ht
  refine ⟨⟨_, tokensOf_of_parses hch hph⟩, .ofTree outer f, .ofTree inner g, .ofTree _ (f.substitute g),
    by rw [compile_of_parses hcf hpf], by rw [compile_of_parses hcg hpg], by rw [compile_of_parses hch hph],
    fun x => ⟨if x.isNaN then Number.undefined else g.value x, _, by rw [evaluate_ofTree hcg hpg]; rfl,
      by rw [evaluate_ofTree hcf hpf]; rfl, ?_⟩⟩
  rw [evaluate_ofTree hch hph, Tree.value_substitute, Report.outcome_pure]
  by_cases hx : x.isNaN
  · rw [if_pos hx, if_pos hx, if_pos Number.isNaN_undefined]
  · rw [if_neg hx, if_neg hx]
    -- Outside, an undefined value of the inner tree ends the evaluation; inside, it spreads from the variable.
    by_cases hy : (g.value x).isNaN
    · rw [if_pos hy, Tree.value_undefined hm hleaf hy]
    · rw [if_neg hy]

/-- The variable of `exp(x)*X` is written twice, beside the `x` in the name of the function. -/
theorem evaluate_substitute_successor :
    ∃ f g h, (compile "exp(x)*X").outcome = .ok f ∧ (compile "x+1").outcome = .ok g ∧
      (compile "exp((x+1))*(x+1)").outcome = .ok h ∧
      ∀ x : Float, ∃ y z, (g.evaluate x).outcome = .ok y ∧ (f.evaluate y).outcome = .ok z ∧
        (h.evaluate x).outcome = .ok z := by
  have ho : tokenize "exp(x)*X" = .ok [Kind.exp.token, Kind.leftParen.token, .operand .x, Kind.rightParen.token,
      Kind.multiply.token, .operand .x] := by decide +kernel
  have hi : tokenize "x+1" = .ok [.operand .x, Kind.add.token, .operand (Lexeme.literal ['1'])] := by decide +kernel
  have ht : String.ofList (substitute "x+1".toList "exp(x)*X".toList) = "exp((x+1))*(x+1)" := by decide +kernel
  have := (evaluate_substitute ho hi (by decide)).2
  rwa [ht] at this

end Formula
