import Formula.Proofs.Balance
import Formula.Proofs.SinglePass
import Formula.Proofs.Spacing
/-!
# The character to blame

A definition that is rejected has a character to blame, unless it is empty. `Blames` says for each kind of fault what
stands at its position, and `tokenize_blames` that the position of every rejection is such a place. Faults of a lexeme
lie where the text is cut: its lexemes up to there can be read.
-/

namespace Formula

/-! ## Places between lexemes -/

/-- Cutting a text from left to right into blanks and lexemes comes to a rest of it. -/
inductive Lexeme.ComesTo : List Char → List Char → Prop
  | here (rest : List Char) : ComesTo rest rest
  | blank {c : Char} {text rest : List Char} (blank : Text.isBlank c) (comes : ComesTo text rest) :
      ComesTo (c :: text) rest
  | lexeme {chars text rest : List Char} {token : Token} (reads : Reads chars text token) (comes : ComesTo text rest) :
      ComesTo (chars ++ text) rest

/-- What stands at a place of a text where a fault of some kind is found. -/
inductive Blames (text : List Char) : Fault.Kind → Nat → Prop
  /-- The first closing bracket up to which more brackets are closed than opened. -/
  | unpaired {front rest : List Char} (split : text = front ++ ')' :: rest)
      (covered : ∀ part, part <+: front → part.count ')' ≤ part.count '(')
      (more : (front ++ [')']).count '(' < (front ++ [')']).count ')') : Blames text .unmatchedParenthesis front.length
  /-- The last character, if there is no such bracket and more are opened than closed. -/
  | unclosed (covered : ∀ part, part <+: text → part.count ')' ≤ part.count '(')
      (more : text.count ')' < text.count '(') : Blames text .unmatchedParenthesis (text.length - 1)
  /-- As many digits and points as follow one another, with two points or no digit. -/
  | numeral {front run rest : List Char} (split : text = front ++ (run ++ rest))
      (comes : Lexeme.ComesTo text (run ++ rest)) (nonempty : run ≠ []) (numerals : run.all Lexeme.isNumeral)
      (maximal : rest.head?.all (!Lexeme.isNumeral ·)) (malformed : 2 ≤ run.count '.' ∨ ¬ run.any Char.isDigit) :
      Blames text .malformedNumber front.length
  /-- A character that begins neither a number nor a spelling of the catalog. -/
  | character {front rest : List Char} {c : Char} (split : text = front ++ c :: rest)
      (comes : Lexeme.ComesTo text (c :: rest)) (blank : ¬ Text.isBlank c) (numeral : ¬ Lexeme.isNumeral c)
      (spellings : ∀ token ∈ Token.catalog, ¬ Token.begins token.spelling (c :: rest)) :
      Blames text .unrecognizedToken front.length
  | lexeme {front chars rest : List Char} {token : Token} (split : text = front ++ (chars ++ rest))
      (comes : Lexeme.ComesTo text (chars ++ rest)) (reads : Lexeme.Reads chars rest token) :
      Blames text .misplacedToken front.length
  | closing {front rest : List Char} (split : text = front ++ ')' :: rest)
      (comes : Lexeme.ComesTo text (')' :: rest)) : Blames text .wrongArgumentCount front.length
  | comma {front rest : List Char} (split : text = front ++ ',' :: rest)
      (comes : Lexeme.ComesTo text (',' :: rest)) : Blames text .invalidComma front.length
  | blanks (blank : text.all Text.isBlank) : Blames text .incompleteExpression 0
  | last (tokens : ¬ text.all Text.isBlank) : Blames text .incompleteExpression (text.length - 1)

/-! ## A lexeme at fault -/

/-- At the beginning of a text, the tokenizer finds a fault. -/
inductive Refuses (text : List Char) : Fault → Prop
  | unreadable {fault : Fault} (fails : Lexeme.Fails text fault) : Refuses text fault
  | misplaced {chars rest : List Char} {token : Token} (split : text = chars ++ rest)
      (reads : Lexeme.Reads chars rest token) : Refuses text .misplaced
  | argumentCount {chars rest : List Char} (split : text = chars ++ rest)
      (reads : Lexeme.Reads chars rest Kind.rightParen.token) : Refuses text .argumentCount
  | comma {chars rest : List Char} (split : text = chars ++ rest)
      (reads : Lexeme.Reads chars rest Kind.comma.token) : Refuses text .comma

theorem ite_eq_error {α : Type} {condition : Prop} [Decidable condition] {value : α} {fault fault' : Fault}
    (h : (if condition then .ok value else .error fault : Except Fault α) = .error fault') : fault' = fault := by
  split at h <;> cases h
  rfl

theorem accept_eq_error {recent : List Token} {lexeme : Token} {fault : Fault} (hw : lexeme.IsWritten)
    (h : accept recent lexeme = .error fault) :
    fault = .misplaced ∨ fault = .argumentCount ∧ lexeme = Kind.rightParen.token ∨
      fault = .comma ∧ lexeme = Kind.comma.token := by
  cases hw with
  | operand leaf => exact .inl (ite_eq_error h)
  | @operator kind hk =>
    rcases Kind.isFunction_or_isInfix hk with hf | hi | rfl | rfl | rfl
    · rw [accept_function hf] at h
      exact .inl (ite_eq_error h)
    · rw [accept_binary hi] at h
      split at h
      · cases h
      · exact .inl (ite_eq_error h)
    · exact .inl (ite_eq_error h)
    · rw [accept_rightParen] at h
      split at h
      · cases h
        exact .inl rfl
      · exact .inr (.inl ⟨ite_eq_error h, rfl⟩)
    · rw [accept_comma] at h
      split at h
      · cases h
        exact .inl rfl
      · exact .inr (.inr ⟨ite_eq_error h, rfl⟩)

/-- A lexeme at fault stands where cutting the text comes to. -/
theorem refuses_of_acceptAll {position : Nat} {text : List Char} {recent : List Token} {rejection : Rejection}
    (h : acceptAll recent (Lexeme.ofText position text) = .error rejection) :
    ∃ front rest, text = front ++ rest ∧ rejection.position = ((position + front.length : Nat) : Int) ∧
      Lexeme.ComesTo text rest ∧ Refuses rest rejection.fault := by
  fun_induction Lexeme.ofText position text generalizing recent with
  | case1 position => cases h
  | case2 position c rest hb ih =>
    obtain ⟨front, rest, rfl, hp, comes, refuses⟩ := ih h
    exact ⟨c :: front, rest, rfl, by rw [hp, List.length_cons]; congr 1; omega, .blank hb comes, refuses⟩
  | case3 position c rest hb fault hread =>
    obtain rfl := Except.error.inj h
    exact ⟨[], c :: rest, rfl, rfl, .here _, .unreadable (Lexeme.fails_of_read hb hread)⟩
  | case4 position c rest hb token more hread ih =>
    obtain ⟨chars, rest, rfl, rfl, reads⟩ := Lexeme.reads_of_read hread
    rw [acceptAll_cons] at h
    cases ha : accept recent token with
    | error fault =>
      rw [ha] at h
      obtain rfl := Except.error.inj h
      refine ⟨[], c :: (chars ++ rest), rfl, rfl, .here _, ?_⟩
      rcases accept_eq_error reads.isWritten ha with rfl | ⟨rfl, rfl⟩ | ⟨rfl, rfl⟩
      · exact .misplaced (List.cons_append).symm reads
      · exact .argumentCount (List.cons_append).symm reads
      · exact .comma (List.cons_append).symm reads
    | ok accepted =>
      rw [ha] at h
      rw [List.drop_left] at ih h
      obtain ⟨front, rest, rfl, hp, comes, refuses⟩ := ih h
      refine ⟨c :: chars ++ front, rest, by simp, ?_, .lexeme reads comes, refuses⟩
      rw [hp, List.length_append, List.length_cons]
      congr 1
      omega

theorem Lexeme.Reads.eq_symbol {kind : Kind} (symbol : kind.isSymbol) {chars rest : List Char}
    (h : Lexeme.Reads chars rest kind.token) : chars = kind.spelling.toList :=
  eq_of_map_toLower (Lexeme.not_isAlpha_of_isSymbol symbol) h.letters

theorem Refuses.blames {front rest : List Char} {fault : Fault} (h : Refuses rest fault)
    (comes : Lexeme.ComesTo (front ++ rest) rest) : Blames (front ++ rest) fault.kind front.length ∧ rest ≠ [] := by
  cases h with
  | unreadable fails =>
    cases fails with
    | @twoPoints run rest numerals maximal points =>
      have nonempty : run ≠ [] := by
        rintro rfl
        cases points
      exact ⟨.numeral rfl comes nonempty numerals maximal (.inl points), by simp [nonempty]⟩
    | noDigit numerals maximal nonempty points digits =>
      exact ⟨.numeral rfl comes nonempty numerals maximal (.inr digits), by simp [nonempty]⟩
    | unrecognized blank numeral spellings =>
      exact ⟨.character rfl comes blank numeral spellings, List.cons_ne_nil _ _⟩
  | misplaced split reads =>
    subst split
    exact ⟨.lexeme rfl comes reads, by simp [reads.not_blank.1]⟩
  | argumentCount split reads =>
    obtain rfl := reads.eq_symbol rfl
    subst split
    exact ⟨.closing rfl comes, List.cons_ne_nil _ _⟩
  | comma split reads =>
    obtain rfl := reads.eq_symbol rfl
    subst split
    exact ⟨.comma rfl comes, List.cons_ne_nil _ _⟩

/-! ## All rejections -/

/-- The ways in which a text is rejected, in the order in which they are looked at. -/
inductive Rejects (text : List Char) : Rejection → Prop
  | empty (empty : text = []) : Rejects text ⟨.empty, -1⟩
  | unmatched {place : Nat} (nonempty : text ≠ []) (scan : Brackets.unmatched? text = some place) :
      Rejects text ⟨.unmatchedBracket, place⟩
  | refused {rejection : Rejection} (nonempty : text ≠ []) (matched : Brackets.unmatched? text = none)
      (refused : acceptAll [] (Lexeme.ofText 0 text) = .error rejection) : Rejects text rejection
  | noTokens (nonempty : text ≠ []) (matched : Brackets.unmatched? text = none)
      (accepted : acceptAll [] (Lexeme.ofText 0 text) = .ok []) : Rejects text ⟨.noTokens, 0⟩
  | openEnd {final : List Token} (nonempty : text ≠ []) (matched : Brackets.unmatched? text = none)
      (accepted : acceptAll [] (Lexeme.ofText 0 text) = .ok final) (begun : final ≠ []) :
      Rejects text ⟨.openEnd, text.length - 1⟩

theorem rejects_of_tokensOf {text : List Char} {rejection : Rejection} (h : tokensOf text = .error rejection) :
    Rejects text rejection := by
  by_cases empty : text = []
  · subst empty
    obtain rfl := Except.error.inj h
    exact .empty rfl
  · cases scan : Brackets.unmatched? text with
    | some place =>
      rw [tokensOf, if_neg (by simpa using empty), scan] at h
      obtain rfl := Except.error.inj h
      exact .unmatched empty scan
    | none =>
      rw [tokensOf_eq_conclude empty scan] at h
      cases accepted : acceptAll [] (Lexeme.ofText 0 text) with
      | error refusal =>
        rw [accepted] at h
        obtain rfl := Except.error.inj h
        exact .refused empty scan accepted
      | ok final =>
        rw [accepted] at h
        cases final with
        | nil =>
          obtain rfl := Except.error.inj h
          exact .noTokens empty scan accepted
        | cons last before =>
          rw [conclude] at h
          split at h
          · cases h
          · obtain rfl := Except.error.inj h
            exact .openEnd empty scan accepted (List.cons_ne_nil _ _)

/-- A text without lexemes is blank. -/
theorem Lexeme.ofText_eq_nil_iff {position : Nat} {text : List Char} :
    Lexeme.ofText position text = [] ↔ text.all Text.isBlank := by
  fun_induction Lexeme.ofText position text with
  | case1 position => simp
  | case2 position c rest hb ih => simp [ih, hb]
  | case3 position c rest hb fault hread => simp [hb]
  | case4 position c rest hb token more hread ih => simp [hb]

/-- Every lexeme that is accepted is kept as a token. -/
theorem length_of_acceptAll {recent final : List Token} {lexemes : List Lexeme}
    (h : acceptAll recent lexemes = .ok final) : final.length = recent.length + lexemes.length := by
  induction lexemes generalizing recent with
  | nil =>
    obtain rfl := Except.ok.inj h
    rfl
  | cons lexeme lexemes ih =>
    rw [acceptAll] at h
    split at h
    · cases h
    · rw [ih h, List.length_cons, List.length_cons]
      omega

theorem blank_iff_of_acceptAll {position : Nat} {text : List Char} {final : List Token}
    (h : acceptAll [] (Lexeme.ofText position text) = .ok final) : text.all Text.isBlank ↔ final = [] := by
  rw [← @Lexeme.ofText_eq_nil_iff position, ← List.length_eq_zero_iff, ← List.length_eq_zero_iff,
    length_of_acceptAll h, List.length_nil, Nat.zero_add]

theorem Rejects.blames {text : List Char} {rejection : Rejection} (h : Rejects text rejection) (nonempty : text ≠ []) :
    ∃ place : Nat, rejection.position = place ∧ place < text.length ∧ Blames text rejection.fault.kind place := by
  have inside : 0 < text.length := List.length_pos_iff.2 nonempty
  cases h with
  | empty empty => exact absurd empty nonempty
  | unmatched _ scan =>
    refine ⟨_, rfl, ?_⟩
    cases Brackets.unmatched_of_scan scan with
    | @closing front rest covered settled =>
      rw [Nat.zero_add]
      refine ⟨by simp, .unpaired rfl (by simpa [Covered] using covered) ?_⟩
      simp [settled]
    | opening covered left =>
      rw [Nat.zero_add]
      exact ⟨by omega, .unclosed (by simpa [Covered] using covered) (by simpa using left)⟩
  | refused _ _ refused =>
    obtain ⟨front, rest, rfl, hp, comes, refuses⟩ := refuses_of_acceptAll refused
    obtain ⟨blames, more⟩ := refuses.blames comes
    rw [Nat.zero_add] at hp
    refine ⟨_, hp, ?_, blames⟩
    have := List.length_pos_iff.2 more
    rw [List.length_append]
    omega
  | noTokens _ _ accepted => exact ⟨0, rfl, inside, .blanks ((blank_iff_of_acceptAll accepted).2 rfl)⟩
  | openEnd _ _ accepted begun =>
    refine ⟨text.length - 1, ?_, by omega, .last fun blank => begun ((blank_iff_of_acceptAll accepted).1 blank)⟩
    simp only
    omega

theorem Rejects.balanced {text : List Char} {rejection : Rejection} (h : Rejects text rejection)
    (other : rejection.fault.kind ≠ .unmatchedParenthesis) : Balanced text := by
  cases h with
  | empty empty =>
    subst empty
    exact Brackets.unmatched?_eq_none_iff.1 rfl
  | unmatched => exact absurd rfl other
  | refused _ matched | noTokens _ matched | openEnd _ matched => exact Brackets.unmatched?_eq_none_iff.1 matched

theorem Blames.kind_ne {text : List Char} {kind : Fault.Kind} {place : Nat} (h : Blames text kind place) :
    kind ≠ .emptyDefinition := by
  cases h <;> exact fun heq => nomatch heq

/-- Only an empty definition is rejected without a position. The position of any other rejection lies in the definition,
where something stands that its kind blames, and the brackets are balanced unless they are what is blamed. -/
theorem tokenize_blames {definition : String} {rejection : Rejection} (h : tokenize definition = .error rejection) :
    (rejection.position = -1 ↔ definition = "") ∧ (rejection.fault.kind = .emptyDefinition ↔ definition = "") ∧
      (rejection.fault.kind ≠ .unmatchedParenthesis → Balanced definition.toList) ∧
      (definition ≠ "" → ∃ place : Nat, rejection.position = place ∧ place < definition.length ∧
        Blames definition.toList rejection.fault.kind place) := by
  have rejects := rejects_of_tokensOf h
  by_cases empty : definition = ""
  · subst empty
    obtain rfl : ⟨.empty, -1⟩ = rejection := Except.error.inj h
    exact ⟨by simp, by simp [Fault.kind], rejects.balanced, fun nonempty => absurd rfl nonempty⟩
  · have nonempty : definition.toList ≠ [] := by simpa using empty
    obtain ⟨place, hp, inside, blames⟩ := rejects.blames nonempty
    rw [String.length_toList] at inside
    refine ⟨?_, ?_, rejects.balanced, fun _ => ⟨place, hp, inside, blames⟩⟩
    · rw [hp]
      exact ⟨fun hn => by omega, fun he => absurd he empty⟩
    · exact ⟨fun hk => absurd hk blames.kind_ne, fun he => absurd he empty⟩

/-- A call with too many arguments is rejected at the bracket that closes it, not where the first one too many
begins. -/
theorem tokenize_blames_call :
    tokenize "2*sin(x,1)" = .error ⟨.argumentCount, 9⟩ ∧ Balanced "2*sin(x,1)".toList ∧
      Blames "2*sin(x,1)".toList .wrongArgumentCount 9 := by
  have h : tokenize "2*sin(x,1)" = .error ⟨.argumentCount, 9⟩ := by decide +kernel
  obtain ⟨-, -, balanced, blames⟩ := tokenize_blames h
  obtain ⟨place, hp, -, hb⟩ := blames (by decide)
  obtain rfl : place = 9 := by
    simp only at hp
    omega
  exact ⟨h, balanced (by decide), hb⟩

end Formula
