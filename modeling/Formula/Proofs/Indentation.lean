import Formula.Proofs.Blame
/-!
# Blanks in front of a definition

Blanks in front of a definition move its characters and do nothing else. The brackets, the lexemes and the end of the
text are met as many places later (`unmatchedFrom?_add`, `ofText_add`, `conclude_shift`), and no check depends on how
far it is from the beginning. So an indented definition has the same tokens or the same fault, at the same character
(`tokenize_indented`).
-/

namespace Formula

/-! ## Later places -/

def Lexeme.shift (distance : Nat) (lexeme : Lexeme) : Lexeme :=
  { lexeme with start := lexeme.start + distance }

def Rejection.shift (distance : Nat) (rejection : Rejection) : Rejection :=
  { rejection with position := rejection.position + distance }

theorem Rejection.shift_eq_iff {distance : Nat} {rejection : Rejection} {fault : Fault} {position : Int} :
    rejection.shift distance = ⟨fault, position + distance⟩ ↔ rejection = ⟨fault, position⟩ := by
  cases rejection
  simp [shift]

namespace Brackets

theorem unmatchedFrom?_other {c : Char} (opening : c ≠ '(') (closing : c ≠ ')') (depth position : Nat)
    (rest : List Char) : unmatchedFrom? depth position (c :: rest) = unmatchedFrom? depth (position + 1) rest := by
  rw [unmatchedFrom?]
  · exact opening
  · exact closing

theorem unmatchedFrom?_blanks {blanks : List Char} (blank : blanks.all Text.isBlank) (depth position : Nat)
    (text : List Char) :
    unmatchedFrom? depth position (blanks ++ text) = unmatchedFrom? depth (position + blanks.length) text := by
  induction blanks generalizing position with
  | nil => rfl
  | cons c blanks ih =>
    rw [List.all_cons, Bool.and_eq_true] at blank
    have opening : c ≠ '(' := by
      rintro rfl
      exact absurd blank.1 (by decide)
    have closing : c ≠ ')' := by
      rintro rfl
      exact absurd blank.1 (by decide)
    rw [List.cons_append, unmatchedFrom?_other opening closing, ih blank.2, List.length_cons]
    congr 1
    omega

/-- As many places later, the same bracket is at fault. Every open bracket has a character of its own, so there is a
last character to blame if one stays open. -/
theorem unmatchedFrom?_add {depth position : Nat} (inside : depth ≤ position) (distance : Nat) (text : List Char) :
    unmatchedFrom? depth (position + distance) text = (unmatchedFrom? depth position text).map (· + distance) := by
  fun_induction unmatchedFrom? depth position text with
  | case1 position => rfl
  | case2 depth position hd =>
    rw [unmatchedFrom?, if_neg hd, Option.map_some, Nat.sub_add_comm (by omega)]
  | case3 depth position rest ih =>
    rw [unmatchedFrom?, Nat.add_right_comm]
    exact ih (by omega)
  | case4 position rest => rfl
  | case5 depth position rest hd ih =>
    rw [unmatchedFrom?, if_neg hd, Nat.add_right_comm]
    exact ih (by omega)
  | case6 depth position c rest opening closing ih =>
    rw [unmatchedFrom?_other opening closing, Nat.add_right_comm]
    exact ih (by omega)

end Brackets

namespace Lexeme

theorem ofText_blanks {blanks : List Char} (blank : blanks.all Text.isBlank) (position : Nat) (text : List Char) :
    ofText position (blanks ++ text) = ofText (position + blanks.length) text := by
  induction blanks generalizing position with
  | nil => rfl
  | cons c blanks ih =>
    rw [List.all_cons, Bool.and_eq_true] at blank
    rw [List.cons_append, ofText_blank blank.1, ih blank.2, List.length_cons]
    congr 1
    omega

/-- As many places later, the same lexemes are read. -/
theorem ofText_add (position distance : Nat) (text : List Char) :
    ofText (position + distance) text = (ofText position text).map (shift distance) := by
  fun_induction ofText position text with
  | case1 position => rw [ofText, List.map_nil]
  | case2 position c rest hb ih => rw [ofText_blank hb, Nat.add_right_comm, ih]
  | case3 position c rest hb fault hread =>
    rw [ofText, if_neg hb, hread]
    rfl
  | case4 position c rest hb token more hread ih =>
    have later : position + distance + 1 + more = position + 1 + more + distance := by omega
    rw [ofText, if_neg hb, hread]
    simp only
    rw [later, ih]
    rfl

end Lexeme

/-- Whether a lexeme is accepted does not depend on its place. -/
theorem acceptAll_shift (distance : Nat) (recent : List Token) (lexemes : List Lexeme) :
    acceptAll recent (lexemes.map (Lexeme.shift distance)) =
      (acceptAll recent lexemes).mapError (Rejection.shift distance) := by
  induction lexemes generalizing recent with
  | nil => rfl
  | cons lexeme rest ih =>
    rw [List.map_cons, acceptAll, acceptAll]
    have same : (lexeme.shift distance).token = lexeme.token := rfl
    rw [same]
    cases lexeme.token >>= accept recent with
    | error fault => rfl
    | ok token => exact ih (token :: recent)

/-- The end of a longer text comes as many places later. Only a text without tokens is blamed at a fixed place. -/
theorem conclude_shift {outcome : Except Rejection (List Token)} (visible : outcome ≠ .ok []) (length distance : Nat) :
    conclude (length + distance) (outcome.mapError (Rejection.shift distance)) =
      (conclude length outcome).mapError (Rejection.shift distance) := by
  cases outcome with
  | error rejection => rfl
  | ok final =>
    cases final with
    | nil => exact absurd rfl visible
    | cons last before =>
      have ending : ((length + distance : Nat) : Int) - 1 = (length : Int) - 1 + distance := by omega
      rw [Except.mapError, conclude, conclude, ending]
      split <;> rfl

/-! ## Indented definitions -/

theorem tokensOf_blanks_append {blanks text : List Char} (blank : blanks.all Text.isBlank)
    (visible : ¬ text.all Text.isBlank) :
    tokensOf (blanks ++ text) = (tokensOf text).mapError (Rejection.shift blanks.length) := by
  have nonempty : text ≠ [] := by
    rintro rfl
    exact visible rfl
  have nonempty' : blanks ++ text ≠ [] := List.append_ne_nil_of_right_ne_nil blanks nonempty
  have scan : Brackets.unmatched? (blanks ++ text) = (Brackets.unmatched? text).map (· + blanks.length) := by
    rw [Brackets.unmatched?, Brackets.unmatchedFrom?_blanks blank, Brackets.unmatchedFrom?_add (Nat.le_refl 0)]
    rfl
  cases matched : Brackets.unmatched? text with
  | some position =>
    rw [matched] at scan
    rw [tokensOf, if_neg (by simpa using nonempty'), scan, tokensOf, if_neg (by simpa using nonempty), matched]
    rfl
  | none =>
    rw [matched] at scan
    have lexemes : Lexeme.ofText 0 (blanks ++ text) = (Lexeme.ofText 0 text).map (Lexeme.shift blanks.length) := by
      rw [Lexeme.ofText_blanks blank, Lexeme.ofText_add]
    have tokens : acceptAll [] (Lexeme.ofText 0 text) ≠ .ok [] := fun h => visible ((blank_iff_of_acceptAll h).2 rfl)
    rw [tokensOf_eq_conclude nonempty' scan, tokensOf_eq_conclude nonempty matched, lexemes, acceptAll_shift,
      List.length_append, Nat.add_comm, conclude_shift tokens]

/-- Behind blanks, a definition that is not blank itself has the same tokens, or the same fault as many places later. -/
theorem tokenize_indented {blanks definition : String} (blank : blanks.toList.all Text.isBlank)
    (visible : ¬ definition.toList.all Text.isBlank) :
    (∀ tokens, tokenize (blanks ++ definition) = .ok tokens ↔ tokenize definition = .ok tokens) ∧
      ∀ fault position, tokenize (blanks ++ definition) = .error ⟨fault, position + blanks.length⟩ ↔
        tokenize definition = .error ⟨fault, position⟩ := by
  have shifted : tokenize (blanks ++ definition) =
      (tokenize definition).mapError (Rejection.shift blanks.length) := by
    rw [tokenize, String.toList_append, tokensOf_blanks_append blank visible, String.length_toList]
    rfl
  rw [shifted]
  cases tokenize definition with
  | ok tokens => simp [Except.mapError]
  | error rejection => simp [Except.mapError, Rejection.shift_eq_iff]

/-- The bracket that stays open and the sign without an operand are blamed where they stand. -/
theorem tokenize_indented_brackets :
    tokenize ("\u00a0\t" ++ "2*(x") = .error ⟨.unmatchedBracket, 5⟩ ∧
      tokenize ("\u00a0\t" ++ "2*-") = .error ⟨.openEnd, 4⟩ := by
  have blank : "\u00a0\t".toList.all Text.isBlank := by decide
  have unmatched : tokenize "2*(x" = .error ⟨.unmatchedBracket, 3⟩ := by decide +kernel
  have unfinished : tokenize "2*-" = .error ⟨.openEnd, 2⟩ := by decide +kernel
  exact ⟨((tokenize_indented blank (by decide)).2 _ _).2 unmatched,
    ((tokenize_indented blank (by decide)).2 _ _).2 unfinished⟩

-- A blank definition has no character of its own to blame, so blanks in front of it move nothing.
example : tokenize " " = .error ⟨.noTokens, 0⟩ ∧ tokenize "\t " = .error ⟨.noTokens, 0⟩ := by decide +kernel

end Formula
