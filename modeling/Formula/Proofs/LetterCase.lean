import Formula.Proofs.SinglePass
import Formula.Proofs.Spacing
/-!
# Letters of either case

Only one comparison folds the case of letters: that of a text with a spelling. Nothing else looks at letters, so every
pass over a text comes to the same result once its letters are small (`tokensOf_toLower`). Definitions that differ in
the case of letters have the same tokens or the same fault, and compile to functions of the same values
(`tokenize_ignores_case`).
-/

namespace Formula

/-! ## Texts in small letters -/

/-- Letters become letters only. -/
theorem toLower_eq_iff {c symbol : Char} (h : ¬ symbol.isAlpha) : c.toLower = symbol ↔ c = symbol := by
  have letters : ∀ c : Char, c.isAlpha → decide (c = symbol) = false := by
    intro c hc
    refine decide_eq_false ?_
    rintro rfl
    exact h hc
  simpa using apply_toLower letters c

namespace Token

theorem begins_toLower (spelling : String) (text : List Char) :
    begins spelling (text.map Char.toLower) = begins spelling text := by
  have idempotent : Char.toLower ∘ Char.toLower = Char.toLower := funext Char.toLower_toLower_eq_toLower
  rw [Bool.eq_iff_iff, begins_iff, begins_iff, ← List.map_take, List.map_map, idempotent]

theorem first?_toLower (text : List Char) : first? (text.map Char.toLower) = first? text := by
  simp only [first?, begins_toLower]

end Token

namespace Lexeme

theorem isBlank_toLower (c : Char) : Text.isBlank c.toLower = Text.isBlank c :=
  apply_toLower isBlank_of_isAlpha c

theorem isNumeral_toLower (c : Char) : isNumeral c.toLower = isNumeral c :=
  apply_toLower isNumeral_of_isAlpha c

/-- The digits and points with which a text begins are no letters. -/
theorem takeWhile_isNumeral_toLower (text : List Char) :
    (text.map Char.toLower).takeWhile isNumeral = text.takeWhile isNumeral := by
  have same : isNumeral ∘ Char.toLower = isNumeral := funext isNumeral_toLower
  rw [List.takeWhile_map, same, map_toLower_eq_self (not_isAlpha_of_numerals List.all_takeWhile)]

theorem read_toLower (c : Char) (rest : List Char) : read c.toLower (rest.map Char.toLower) = read c rest := by
  by_cases numeral : isNumeral c
  · have unchanged : c.toLower = c := by
      refine toLower_eq_self fun letter => ?_
      rw [isNumeral_of_isAlpha c letter] at numeral
      cases numeral
    simp only [read, unchanged, takeWhile_isNumeral_toLower]
    rw [if_pos numeral, if_pos numeral]
  · have first : Token.first? (c.toLower :: rest.map Char.toLower) = Token.first? (c :: rest) :=
      Token.first?_toLower (c :: rest)
    simp only [read, isNumeral_toLower, first]
    rw [if_neg numeral, if_neg numeral]

theorem ofText_toLower (position : Nat) (text : List Char) :
    ofText position (text.map Char.toLower) = ofText position text := by
  fun_induction ofText position text with
  | case1 position => rw [List.map_nil, ofText]
  | case2 position c rest hb ih =>
    rw [List.map_cons, ofText_blank ((isBlank_toLower c).trans hb), ih]
  | case3 position c rest hb fault hread =>
    rw [List.map_cons, ofText, isBlank_toLower, if_neg hb, read_toLower, hread]
  | case4 position c rest hb token more hread ih =>
    rw [List.map_cons, ofText, isBlank_toLower, if_neg hb, read_toLower, hread]
    simp only
    rw [← List.map_drop, ih]

end Lexeme

namespace Brackets

theorem unmatchedFrom?_toLower (depth position : Nat) (text : List Char) :
    unmatchedFrom? depth position (text.map Char.toLower) = unmatchedFrom? depth position text := by
  fun_induction unmatchedFrom? depth position text with
  | case1 position => rfl
  | case2 depth position hd => exact if_neg hd
  | case3 depth position rest ih => exact ih
  | case4 position rest => rfl
  | case5 depth position rest hd ih => exact (if_neg hd).trans ih
  | case6 depth position c rest opening closing ih =>
    have opening : c.toLower ≠ '(' := fun h => opening ((toLower_eq_iff (by decide)).1 h)
    have closing : c.toLower ≠ ')' := fun h => closing ((toLower_eq_iff (by decide)).1 h)
    rw [List.map_cons, unmatchedFrom?, ih]
    · exact opening
    · exact closing

end Brackets

/-- The case of letters does not matter to any pass over a text. -/
theorem tokensOf_toLower (text : List Char) : tokensOf (text.map Char.toLower) = tokensOf text := by
  simp only [tokensOf, List.isEmpty_map, Brackets.unmatched?, Brackets.unmatchedFrom?_toLower, Lexeme.ofText_toLower,
    List.length_map]

theorem tokensOf_eq_of_toLower {text text' : List Char} (h : text.map Char.toLower = text'.map Char.toLower) :
    tokensOf text = tokensOf text' := by
  rw [← tokensOf_toLower text, h, tokensOf_toLower]

/-! ## What is compiled -/

/-- What a definition compiles to depends on its tokens or its fault only. -/
theorem exists_compile_of_tokenize_eq {definition definition' : String}
    (h : tokenize definition = tokenize definition') :
    ∃ code rejection, (compile definition).outcome = .ok { definition, code, rejection } ∧
      (compile definition').outcome = .ok { definition := definition', code, rejection } := by
  cases ht : tokenize definition with
  | ok tokens =>
    obtain ⟨_, tree, _, hp⟩ := exists_parses ht
    exact ⟨tree.postorder, none, compile_of_convert ht hp.convert_eq,
      compile_of_convert (h.symm.trans ht) hp.convert_eq⟩
  | error rejection =>
    exact ⟨[], some rejection, by rw [compile_of_error ht], by rw [compile_of_error (h.symm.trans ht)]⟩

/-- Definitions that agree up to the case of their letters have the same tokens or the same fault at the same place.
They compile to the same code or the same fault, and have the same value everywhere. -/
theorem tokenize_ignores_case {definition definition' : String}
    (h : definition.toList.map Char.toLower = definition'.toList.map Char.toLower) :
    tokenize definition = tokenize definition' ∧
      ∃ compiled compiled', (compile definition).outcome = .ok compiled ∧
        (compile definition').outcome = .ok compiled' ∧ compiled.code = compiled'.code ∧
        compiled.rejection = compiled'.rejection ∧ ∀ x : Float, compiled.evaluate x = compiled'.evaluate x := by
  have same : tokenize definition = tokenize definition' := tokensOf_eq_of_toLower h
  obtain ⟨code, rejection, ho, ho'⟩ := exists_compile_of_tokenize_eq same
  exact ⟨same, _, _, ho, ho', rfl, rfl, fun _ => rfl⟩

/-- The name of a function and the variable are written in letters of either case. -/
theorem tokenize_ignores_case_logarithm :
    tokenize "Log1P(X)" = tokenize "lOG1p(x)" ∧
      tokenize "lOG1p(x)" = .ok [Kind.log1p.token, Kind.leftParen.token, .operand .x, Kind.rightParen.token] ∧
      ∃ compiled compiled', (compile "Log1P(X)").outcome = .ok compiled ∧ (compile "lOG1p(x)").outcome = .ok compiled' ∧
        ∀ x : Float, compiled.evaluate x = compiled'.evaluate x := by
  have h : "Log1P(X)".toList.map Char.toLower = "lOG1p(x)".toList.map Char.toLower := by decide
  obtain ⟨same, compiled, compiled', ho, ho', -, -, values⟩ := tokenize_ignores_case h
  exact ⟨same, by decide +kernel, compiled, compiled', ho, ho', values⟩

end Formula
