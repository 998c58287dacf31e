import Formula.Proofs.Spacing
import Formula.Proofs.Depth
/-!
# Code as text

The text of code is what a reader is shown of a compiled function. A sign and a subtraction are both written as a
minus, and nothing else in code is written alike: two functions have one text iff their code is the same once every
sign is read as a subtraction (`codeText_eq_iff`). As code leaves a single value on the stack, functions with one text
have equally many signs, and they are one function if their signs stand at the same places
(`evaluate_eq_of_codeText_eq`).
-/

namespace Formula

/-! ## Tokens that are written alike -/

/-- A token of a compiled function as a reader of its text would take it: a minus is a subtraction. -/
def Token.unsigned (token : Token) : Token :=
  if token = Kind.negate.token then Kind.subtract.token else token

namespace Token

@[simp] theorem unsigned_negate : unsigned Kind.negate.token = Kind.subtract.token := if_pos rfl

theorem unsigned_of_ne {token : Token} (h : token ≠ Kind.negate.token) : token.unsigned = token := if_neg h

@[simp] theorem spelling_unsigned (token : Token) : token.unsigned.spelling = token.spelling := by
  by_cases h : token = Kind.negate.token
  · rw [h, unsigned_negate]
    rfl
  · rw [unsigned_of_ne h]

/-- Only a sign and a subtraction are taken for a subtraction. -/
theorem unsigned_eq_subtract_iff {token : Token} :
    token.unsigned = Kind.subtract.token ↔ token = Kind.negate.token ∨ token = Kind.subtract.token := by
  by_cases h : token = Kind.negate.token
  · simp [h]
  · simp [unsigned_of_ne h, h]

end Token

/-- What a token of code is taken for is written in some definition. -/
theorem Parses.exists_reads {tier : Tier} {text : List Char} {lexemes tokens : List Token} {tree : Tree}
    (hc : Lexeme.Cuts text lexemes) (hp : Parses tier lexemes tokens tree) {token : Token}
    (hm : token ∈ tree.postorder) : ∃ chars rest, Lexeme.Reads chars rest token.unsigned := by
  cases token with
  | operand leaf => exact hc.exists_reads _ ((hp.operand_mem_iff leaf).1.1 hm)
  | operator node =>
    obtain ⟨kind, -, rfl⟩ := Tree.exists_kind_of_mem hp.wellFormed hm
    have written : kind.token.unsigned ∈ Token.catalog := by
      by_cases h : kind = .negate
      · rw [h, Token.unsigned_negate]
        exact Kind.token_mem_catalog (by decide)
      · have hne : kind.token ≠ Kind.negate.token := by
          intro ht
          exact h (Option.some.inj (congrArg Token.kind? ht))
        rw [Token.unsigned_of_ne hne]
        exact Kind.token_mem_catalog h
    exact ⟨_, [], Lexeme.reads_spelling written rfl⟩

/-! ## The text of code -/

/-- The text of code is cut into the tokens of the code, with a subtraction for each sign. -/
theorem Code.cuts_spellings {code : Code}
    (written : ∀ token ∈ code, ∃ chars rest, Lexeme.Reads chars rest token.unsigned) :
    Lexeme.Cuts (Token.spellings code).toList (code.map Token.unsigned) := by
  induction code with
  | nil => exact .nil
  | cons token code ih =>
    obtain ⟨⟨_, _, reads⟩, written⟩ := List.forall_mem_cons.1 written
    have letters := reads.toLower_spelling
    rw [List.map_cons]
    cases code with
    | nil =>
      have alone : (Token.spellings [token]).toList = token.unsigned.spelling.toList ++ [] := by simp [Token.spellings]
      rw [alone]
      exact .lexeme (reads.respell letters (.inr rfl)) .nil
    | cons next code =>
      have first : (Token.spellings (token :: next :: code)).toList =
          token.unsigned.spelling.toList ++ ' ' :: (Token.spellings (next :: code)).toList := by
        simp [Token.spellings, String.intercalate_cons_cons]
      have space : (' ' :: (Token.spellings (next :: code)).toList).head?.all Lexeme.breaks := by
        rw [List.head?_cons, Option.all_some]
        exact Lexeme.breaks_of_isBlank (by decide)
      rw [first]
      exact .lexeme (reads.respell letters (.inr space)) (.blank (by decide) (ih written))

section Valid

variable {definition definition' : String} {f g : Compiled} (hf : (compile definition).outcome = .ok f)
  (hg : (compile definition').outcome = .ok g)

include hf in
/-- The code of a valid function lists the tree of a definition. -/
theorem exists_parses_of_isValid (vf : f.isValid) : ∃ lexemes tokens tree, Lexeme.Cuts definition.toList lexemes ∧
    Parses .additive lexemes tokens tree ∧ f.code = tree.postorder := by
  rcases compiled_cases hf with ⟨lexemes, tokens, tree, hc, hp, rfl⟩ | ⟨_, -, rfl⟩
  · exact ⟨lexemes, tokens, tree, hc, hp, rfl⟩
  · cases vf

include hf in
theorem cuts_codeText (vf : f.isValid) : Lexeme.Cuts f.codeText.toList (f.code.map Token.unsigned) := by
  obtain ⟨_, _, tree, hc, hp, hcode⟩ := exists_parses_of_isValid hf vf
  rw [Compiled.codeText, hcode]
  exact Code.cuts_spellings fun _ hm => hp.exists_reads hc hm

include hf in
theorem depth_code (vf : f.isValid) : f.code.depth = 1 := by
  obtain ⟨_, _, tree, -, hp, hcode⟩ := exists_parses_of_isValid hf vf
  rw [hcode, Code.depth_postorder hp.wellFormed]

include hf hg in
/-- The text of a valid function determines its code, but for which of the tokens written as a minus are signs. -/
theorem codeText_eq_iff (vf : f.isValid) (vg : g.isValid) :
    f.codeText = g.codeText ↔ f.code.map Token.unsigned = g.code.map Token.unsigned := by
  constructor
  · intro h
    have cuts := cuts_codeText hf vf
    rw [h] at cuts
    exact cuts.unique (cuts_codeText hg vg)
  · intro h
    have spellings := congrArg (List.map Token.spelling) h
    simp only [List.map_map, Function.comp_def, Token.spelling_unsigned] at spellings
    rw [Compiled.codeText, Compiled.codeText, Token.spellings, Token.spellings, spellings]

end Valid

/-! ## The signs of code -/

namespace Code

variable {code code' : Code}

/-- A sign takes one value fewer than the subtraction it is written as. -/
theorem depth_eq_unsigned (code : Code) :
    code.depth = depth (code.map Token.unsigned) + code.count Kind.negate.token := by
  induction code with
  | nil => rfl
  | cons token code ih =>
    rw [List.map_cons, depth_cons, depth_cons, ih]
    by_cases h : token = Kind.negate.token
    · rw [h, Token.unsigned_negate, List.count_cons_self, show growth Kind.negate.token = 0 from rfl,
        show growth Kind.subtract.token = -1 from rfl]
      omega
    · rw [Token.unsigned_of_ne h, List.count_cons_of_ne h]
      omega

theorem count_unsigned (code : Code) : (code.map Token.unsigned).count Kind.subtract.token =
    code.count Kind.negate.token + code.count Kind.subtract.token := by
  have apart : Kind.negate.token ≠ Kind.subtract.token := by decide
  induction code with
  | nil => rfl
  | cons token code ih =>
    simp only [List.map_cons, List.count_cons, ih, beq_iff_eq, Token.unsigned_eq_subtract_iff]
    by_cases hn : token = Kind.negate.token
    · simp [hn, apart]
      omega
    · simp [hn]
      omega

/-- The signs of one code stand where those of the other do. -/
def SignsAgree (code code' : Code) : Prop :=
  ∀ place : Nat, code[place]? = some Kind.negate.token ↔ code'[place]? = some Kind.negate.token

/-- Where no minus is a subtraction, every minus is a sign. -/
theorem isSign_of_notMem (hu : code.map Token.unsigned = code'.map Token.unsigned)
    (hs : Kind.subtract.token ∉ code') {place : Nat} (h : code[place]? = some Kind.negate.token) :
    code'[place]? = some Kind.negate.token := by
  have minus : (code'.map Token.unsigned)[place]? = some Kind.subtract.token := by
    rw [← hu, List.getElem?_map, h]
    rfl
  obtain ⟨token, ht, hm⟩ := Option.map_eq_some_iff.1 (List.getElem?_map .. ▸ minus)
  rcases Token.unsigned_eq_subtract_iff.1 hm with rfl | rfl
  · exact ht
  · exact absurd (List.mem_of_getElem? ht) hs

/-- Codes that are the same but for their signs agree about these if they have equally many, and every minus of one of
the codes is a sign, or none is. -/
theorem signsAgree_of_notMem (hu : code.map Token.unsigned = code'.map Token.unsigned)
    (hc : code.count Kind.negate.token = code'.count Kind.negate.token)
    (h : Kind.negate.token ∉ code ∨ Kind.subtract.token ∉ code) : SignsAgree code code' := by
  rcases h with hn | hs
  · have hn' : Kind.negate.token ∉ code' := by rwa [← List.count_eq_zero, ← hc, List.count_eq_zero]
    exact fun place => ⟨fun hp => absurd (List.mem_of_getElem? hp) hn, fun hp => absurd (List.mem_of_getElem? hp) hn'⟩
  · have hs' : Kind.subtract.token ∉ code' := by
      have counts := congrArg (List.count Kind.subtract.token) hu
      rw [count_unsigned, count_unsigned, hc, List.count_eq_zero.2 hs] at counts
      exact List.count_eq_zero.1 (by omega)
    exact fun place => ⟨isSign_of_notMem hu hs', isSign_of_notMem hu.symm hs⟩

theorem eq_of_signsAgree (hu : code.map Token.unsigned = code'.map Token.unsigned) (h : SignsAgree code code') :
    code = code' := by
  refine List.ext_getElem? fun place => ?_
  by_cases hn : code[place]? = some Kind.negate.token
  · rw [hn, (h place).1 hn]
  · have hn' : code'[place]? ≠ some Kind.negate.token := fun hp => hn ((h place).2 hp)
    have keep : ∀ {code : Code}, code[place]? ≠ some Kind.negate.token →
        (code.map Token.unsigned)[place]? = code[place]? := by
      intro code hn
      rw [List.getElem?_map]
      cases ht : code[place]? with
      | none => rfl
      | some token => exact congrArg some (Token.unsigned_of_ne fun h => hn (ht.trans (congrArg some h)))
    rw [← keep hn, ← keep hn', hu]

end Code

/-! ## Functions with one text -/

/-- Functions with one text have the same code up to which tokens that are written as a minus are signs, and equally
many of these are. They are one function if the signs agree; this is so if one of them negates nothing or subtracts
nothing. -/
theorem evaluate_eq_of_codeText_eq {definition definition' : String} {f g : Compiled}
    (hf : (compile definition).outcome = .ok f) (hg : (compile definition').outcome = .ok g) (vf : f.isValid)
    (vg : g.isValid) (h : f.codeText = g.codeText) :
    f.code.map Token.unsigned = g.code.map Token.unsigned ∧
      f.code.count Kind.negate.token = g.code.count Kind.negate.token ∧
      (Code.SignsAgree f.code g.code ∨ Kind.negate.token ∉ f.code ∨ Kind.subtract.token ∉ f.code →
        f.code = g.code ∧ ∀ x : Float, f.evaluate x = g.evaluate x) := by
  have hu := (codeText_eq_iff hf hg vf vg).1 h
  have hc : f.code.count Kind.negate.token = g.code.count Kind.negate.token := by
    have depth := depth_code hf vf
    have depth' := depth_code hg vg
    rw [Code.depth_eq_unsigned] at depth depth'
    rw [hu] at depth
    omega
  refine ⟨hu, hc, fun agree => ?_⟩
  have hcode : f.code = g.code :=
    Code.eq_of_signsAgree hu (agree.elim id fun h => Code.signsAgree_of_notMem hu hc h)
  refine ⟨hcode, fun x => ?_⟩
  rw [Compiled.evaluate, Compiled.evaluate, if_pos vf, if_pos vg, hcode]

/-- A sign before a letter of the other case and a bracket that is not needed leave the same function. -/
theorem evaluate_negated_predecessor : ∃ f g : Compiled, (compile "-x-1").outcome = .ok f ∧
    (compile "(-X)-1").outcome = .ok g ∧ f.codeText = g.codeText ∧ ∀ x : Float, f.evaluate x = g.evaluate x := by
  have ht : tokenize "-x-1" = .ok [Kind.negate.token, .operand .x, Kind.subtract.token,
      .operand (Lexeme.literal ['1'])] := by decide +kernel
  have ht' : tokenize "(-X)-1" = .ok [Kind.leftParen.token, Kind.negate.token, .operand .x, Kind.rightParen.token,
      Kind.subtract.token, .operand (Lexeme.literal ['1'])] := by decide +kernel
  have hf := compile_of_convert ht rfl
  have hg := compile_of_convert ht' rfl
  obtain ⟨-, -, same⟩ := evaluate_eq_of_codeText_eq hf hg rfl rfl rfl
  exact ⟨_, _, hf, hg, rfl, (same (.inl fun _ => Iff.rfl)).2⟩

/-- The sign of a difference and the difference from a sign have one text and other values. -/
theorem codeText_hides_signs : ∃ f g : Compiled, (compile "-(x-x)").outcome = .ok f ∧
    (compile "x--x").outcome = .ok g ∧ f.isValid ∧ g.isValid ∧ f.codeText = "x x - -" ∧ g.codeText = "x x - -" ∧
    (f.evaluate 1).outcome = .ok (-0) ∧ (g.evaluate 1).outcome = .ok 2 ∧ (-0 : Float) ≠ 2 ∧
    (2 : Float).isNaN = false := by
  have ht : tokenize "-(x-x)" = .ok [Kind.negate.token, Kind.leftParen.token, .operand .x, Kind.subtract.token,
      .operand .x, Kind.rightParen.token] := by decide +kernel
  have ht' : tokenize "x--x" = .ok [.operand .x, Kind.subtract.token, Kind.negate.token, .operand .x] := by
    decide +kernel
  refine ⟨_, _, compile_of_convert ht rfl, compile_of_convert ht' rfl, rfl, rfl, ?_, ?_, ?_, ?_, ?_, ?_⟩
  all_goals decide +kernel

end Formula
