import Formula.Proofs.Blame
/-!
# Extending a rejected definition

A fault that lies in a number, a token, a call or a comma is found as soon as the tokenizer comes to it. Whatever is
written behind the definition, apart from it and with brackets of its own only, the definition is rejected as before
(`tokenize_append_of_error`). A definition that is empty, ends too early or leaves a bracket open can still be
completed.
-/

namespace Formula

/-! ## What is read before a character that breaks -/

namespace Lexeme

variable {rest : List Char} (hrest : rest.head?.all breaks)

include hrest

/-- A row of digits and points that ends where a text does goes on no further in a longer text. -/
theorem not_isNumeral_append {text : List Char} (maximal : text.head?.all (!isNumeral ·)) :
    (text ++ rest).head?.all (!isNumeral ·) := by
  cases text with
  | cons c text => exact maximal
  | nil => exact not_isNumeral_of_breaks hrest

theorem Reads.append {chars text : List Char} {token : Token} (h : Reads chars text token) :
    Reads chars (text ++ rest) token := by
  rw [← List.append_nil text] at h
  exact h.splice hrest

/-- What cannot be read stays so. -/
theorem Fails.append {text : List Char} {fault : Fault} (h : Fails text fault) : Fails (text ++ rest) fault := by
  cases h with
  | twoPoints numerals maximal points =>
    rw [List.append_assoc]
    exact .twoPoints numerals (not_isNumeral_append hrest maximal) points
  | noDigit numerals maximal nonempty points digits =>
    rw [List.append_assoc]
    exact .noDigit numerals (not_isNumeral_append hrest maximal) nonempty points digits
  | unrecognized blank numeral spellings =>
    refine .unrecognized blank numeral fun token member hbegins => spellings token member ?_
    exact begins_of_append member (List.cons_ne_nil _ _) hrest hbegins

end Lexeme

/-! ## The first fault -/

/-- Nothing behind the first lexeme at fault is looked at. -/
theorem acceptAll_append {rest : List Char} (hrest : rest.head?.all Lexeme.breaks) {position : Nat} {text : List Char}
    {recent : List Token} {rejection : Rejection}
    (h : acceptAll recent (Lexeme.ofText position text) = .error rejection) :
    acceptAll recent (Lexeme.ofText position (text ++ rest)) = .error rejection := by
  fun_induction Lexeme.ofText position text generalizing recent with
  | case1 position => cases h
  | case2 position c text hb ih =>
    rw [List.cons_append, Lexeme.ofText_blank hb]
    exact ih h
  | case3 position c text hb fault hread =>
    rw [((Lexeme.fails_of_read hb hread).append hrest).ofText_eq]
    exact h
  | case4 position c text hb token more hread ih =>
    obtain ⟨chars, text, rfl, rfl, reads⟩ := Lexeme.reads_of_read hread
    have shifted : position + 1 + chars.length = position + (c :: chars).length := by
      rw [List.length_cons]
      omega
    rw [← List.cons_append, List.append_assoc, (reads.append hrest).ofText_eq, acceptAll_cons]
    rw [List.drop_left, shifted] at ih h
    rw [acceptAll_cons] at h
    cases ha : accept recent token with
    | error fault =>
      rw [ha] at h
      exact h
    | ok accepted =>
      rw [ha] at h
      exact ih h

/-- The first fault of a definition is final: behind a blank, text with brackets that match among themselves changes
nothing about it. -/
theorem tokenize_append_of_error {definition extension : String} {rejection : Rejection}
    (h : tokenize definition = .error rejection)
    (kind : rejection.fault.kind ∈ [.malformedNumber, .unrecognizedToken, .misplacedToken, .wrongArgumentCount,
      .invalidComma])
    (parted : extension.toList.head?.all Text.isBlank) (balanced : Balanced extension.toList) :
    tokenize (definition ++ extension) = .error rejection := by
  have breaks : extension.toList.head?.all Lexeme.breaks := by
    cases ht : extension.toList with
    | nil => rfl
    | cons c rest =>
      rw [ht] at parted
      exact Lexeme.breaks_of_isBlank parted
  cases rejects_of_tokensOf h with
  | refused nonempty matched refused =>
    have matched : Brackets.unmatched? (definition.toList ++ extension.toList) = none :=
      Brackets.unmatched?_eq_none_iff.2 ((Brackets.unmatched?_eq_none_iff.1 matched).append balanced)
    rw [tokenize, String.toList_append, tokensOf_eq_conclude (List.append_ne_nil_of_left_ne_nil nonempty _) matched,
      acceptAll_append breaks refused]
    rfl
  | empty | unmatched | noTokens | openEnd => simp [Fault.kind] at kind

/-- A call with too few arguments is not made up for by a better one. -/
theorem tokenize_append_of_error_call : tokenize "1+pow(x)" = .error ⟨.argumentCount, 7⟩ ∧
    tokenize ("1+pow(x)" ++ "\t+ pow(x, 2)") = .error ⟨.argumentCount, 7⟩ := by
  have h : tokenize "1+pow(x)" = .error ⟨.argumentCount, 7⟩ := by decide +kernel
  have balanced : Balanced "\t+ pow(x, 2)".toList := Brackets.unmatched?_eq_none_iff.1 (by decide)
  exact ⟨h, tokenize_append_of_error h (by decide) (by decide) balanced⟩

-- A sum without its last operand is only unfinished, and a lone point may become part of a number.
example : tokenize "1+" = .error ⟨.openEnd, 1⟩ ∧ (tokenize ("1+" ++ " x")).isOk ∧
    tokenize "1+." = .error ⟨.noDigit, 2⟩ ∧ (tokenize ("1+." ++ "5")).isOk := by decide +kernel

end Formula
