import Formula.Proofs.Acceptance
/-!
# Checking in one pass

The tokenizer walks back over the tokens whenever a comma or a closing bracket comes up. `Checked` says what a
definition is found to be by a checker that never looks back: it goes once from left to right, and remembers the last
token and the brackets that are open. Both find the same tokens, or the same fault at the same place
(`tokenize_eq_iff_checked`).
-/

namespace Formula

/-! ## Lexemes that cannot be read -/

namespace Lexeme

/-- No lexeme can be read at the beginning of a text. -/
inductive Fails : List Char → Fault → Prop
  /-- Digits and points, as many as follow one another, with more than one point. -/
  | twoPoints {run rest : List Char} (numerals : run.all isNumeral) (maximal : rest.head?.all (!isNumeral ·))
      (points : 2 ≤ run.count '.') : Fails (run ++ rest) .twoPoints
  /-- Digits and points likewise, with one point at most and no digit. -/
  | noDigit {run rest : List Char} (numerals : run.all isNumeral) (maximal : rest.head?.all (!isNumeral ·))
      (nonempty : run ≠ []) (points : run.count '.' ≤ 1) (digits : ¬ run.any Char.isDigit) :
      Fails (run ++ rest) .noDigit
  /-- A character that begins no number, and with which no spelling of the catalog begins. -/
  | unrecognized {c : Char} {rest : List Char} (blank : ¬ Text.isBlank c) (numeral : ¬ isNumeral c)
      (spellings : ∀ token ∈ Token.catalog, ¬ Token.begins token.spelling (c :: rest)) :
      Fails (c :: rest) .unrecognized

theorem number_eq_error_iff {run : List Char} {fault : Fault} :
    number run = .error fault ↔ (2 ≤ run.count '.' ∧ fault = .twoPoints) ∨
      (run.count '.' ≤ 1 ∧ ¬ run.any Char.isDigit ∧ fault = .noDigit) := by
  unfold number
  split
  · next h =>
    simp only [Except.error.injEq]
    constructor
    · rintro rfl
      exact .inl ⟨h, rfl⟩
    · rintro (⟨-, rfl⟩ | ⟨hle, -⟩)
      · rfl
      · omega
  · next h =>
    split
    · next hd =>
      simp only [Except.error.injEq]
      constructor
      · rintro rfl
        exact .inr ⟨by omega, by simpa using hd, rfl⟩
      · rintro (⟨hle, -⟩ | ⟨-, -, rfl⟩)
        · exact absurd hle h
        · rfl
    · next hd =>
      have digit : run.any Char.isDigit := by simpa using hd
      simp only [reduceCtorEq, false_iff, not_or, not_and]
      exact ⟨fun hle => absurd hle h, fun _ hn => absurd digit hn⟩

theorem fails_of_read {c : Char} {rest : List Char} {fault : Fault} (hb : ¬ Text.isBlank c)
    (h : read c rest = .error fault) : Fails (c :: rest) fault := by
  by_cases hc : isNumeral c
  · have hsplit : c :: rest = (c :: rest.takeWhile isNumeral) ++ rest.dropWhile isNumeral := by
      rw [List.cons_append, List.takeWhile_append_dropWhile]
    have numerals : (c :: rest.takeWhile isNumeral).all isNumeral := by
      simp [hc, List.all_takeWhile]
    have maximal := not_isNumeral_head_dropWhile rest
    have hn : number (c :: rest.takeWhile isNumeral) = .error fault := by
      simp only [read, hc, if_true] at h
      cases hn : number (c :: rest.takeWhile isNumeral) with
      | ok operand => rw [hn] at h; cases h
      | error fault' => rw [hn] at h; cases h; rfl
    rw [hsplit]
    rcases number_eq_error_iff.1 hn with ⟨points, rfl⟩ | ⟨points, digits, rfl⟩
    · exact .twoPoints numerals maximal points
    · exact .noDigit numerals maximal (by simp) points digits
  · simp only [read, hc] at h
    cases hfirst : Token.first? (c :: rest) with
    | some token => rw [hfirst] at h; cases h
    | none =>
      rw [hfirst] at h
      cases h
      exact .unrecognized hb hc (Token.first?_eq_none_iff.1 hfirst)

theorem read_of_number_error {run rest : List Char} {fault : Fault} (numerals : run.all isNumeral)
    (maximal : rest.head?.all (!isNumeral ·)) (nonempty : run ≠ []) (h : number run = .error fault) :
    ∃ c tail, run ++ rest = c :: tail ∧ ¬ Text.isBlank c ∧ read c tail = .error fault := by
  obtain ⟨c, chars, rfl⟩ := List.exists_cons_of_ne_nil nonempty
  have numeral : isNumeral c := List.all_eq_true.1 numerals c List.mem_cons_self
  refine ⟨c, chars ++ rest, rfl, by simp [isBlank_of_isNumeral numeral], ?_⟩
  rw [read_numerals numerals maximal, h]
  rfl

theorem Fails.read {text : List Char} {fault : Fault} (h : Fails text fault) :
    ∃ c rest, text = c :: rest ∧ ¬ Text.isBlank c ∧ read c rest = .error fault := by
  cases h with
  | @twoPoints run _ numerals maximal points =>
    have nonempty : run ≠ [] := by
      rintro rfl
      cases points
    exact read_of_number_error numerals maximal nonempty (number_eq_error_iff.2 (.inl ⟨points, rfl⟩))
  | noDigit numerals maximal nonempty points digits =>
    exact read_of_number_error numerals maximal nonempty (number_eq_error_iff.2 (.inr ⟨points, digits, rfl⟩))
  | @unrecognized c rest blank numeral spellings =>
    refine ⟨c, rest, rfl, blank, ?_⟩
    simp only [Lexeme.read, numeral, Token.first?_eq_none_iff.2 spellings]
    rfl

end Lexeme

/-! ## The checker -/

/-- A place in a definition: the token before it, and the brackets that are open, innermost first. The arguments that
are given to a call before a place are counted by their commas. -/
structure Checker where
  previous : Option Token := none
  frames : List Frame := []

namespace Checker

def category (checker : Checker) : Category :=
  Category.ofPrevious checker.previous

/-- The token before the place lets a token follow. A minus may follow as a sign, but not behind another one. -/
def permits (checker : Checker) (token : Token) : Bool :=
  match Category.ofToken token with
  | .operand | .function => checker.category.opensTerm
  | .leftParen => checker.category.opensTerm || checker.category = .function
  | .rightParen | .comma => checker.category.endsTerm
  | _ =>
    checker.category.endsTerm ||
      (token.kind? = some .subtract && checker.category.opensTerm && checker.category ≠ .negate)

/-- The innermost bracket is one of a call. -/
def inCall (checker : Checker) : Bool :=
  match checker.frames with
  | .call _ _ :: _ => true
  | _ => false

/-- If the innermost bracket is one of a call, its commas part as many arguments as the function takes. -/
def isComplete (checker : Checker) : Bool :=
  match checker.frames with
  | .call function given :: _ => given + 1 = function.arity
  | _ => true

/-- Puts a token in the place, and says what it is there. The token before decides first; then a comma and a closing
bracket have to fit the innermost bracket. -/
def place (checker : Checker) (token : Token) : Except Fault Token :=
  if !checker.permits token then .error .misplaced
  else
    match token.kind? with
    | some .comma => if checker.inCall then .ok token else .error .comma
    | some .rightParen => if checker.isComplete then .ok token else .error .argumentCount
    | some .subtract => .ok (if checker.category.endsTerm then token else .negate)
    | _ => .ok token

/-- The place behind a token. -/
def next (checker : Checker) (token : Token) : Checker :=
  { previous := some token, frames := Frame.after checker.previous token checker.frames }

/-- A pass over a text from the character at `position` on comes to an outcome: the tokens of the text, or the first
fault and its position. -/
inductive Passes : Checker → Nat → List Char → Except Rejection (List Token) → Prop
  | done {checker : Checker} {position : Nat} (ends : checker.category.endsTerm) : Passes checker position [] (.ok [])
  | noTokens {checker : Checker} {position : Nat} (blank : checker.previous = none) :
      Passes checker position [] (.error ⟨.noTokens, 0⟩)
  | openEnd {checker : Checker} {position : Nat} (begun : checker.previous ≠ none)
      (ends : ¬ checker.category.endsTerm) : Passes checker position [] (.error ⟨.openEnd, position - 1⟩)
  | blank {checker : Checker} {position : Nat} {c : Char} {rest : List Char}
      {outcome : Except Rejection (List Token)} (blank : Text.isBlank c)
      (pass : Passes checker (position + 1) rest outcome) : Passes checker position (c :: rest) outcome
  | unreadable {checker : Checker} {position : Nat} {text : List Char} {fault : Fault}
      (fails : Lexeme.Fails text fault) : Passes checker position text (.error ⟨fault, position⟩)
  | rejected {checker : Checker} {position : Nat} {chars rest : List Char} {lexeme : Token} {fault : Fault}
      (reads : Lexeme.Reads chars rest lexeme) (rejects : checker.place lexeme = .error fault) :
      Passes checker position (chars ++ rest) (.error ⟨fault, position⟩)
  | accepted {checker : Checker} {position : Nat} {chars rest : List Char} {lexeme token : Token}
      {outcome : Except Rejection (List Token)} (reads : Lexeme.Reads chars rest lexeme)
      (places : checker.place lexeme = .ok token)
      (pass : Passes (checker.next token) (position + chars.length) rest outcome) :
      Passes checker position (chars ++ rest) (outcome.map (token :: ·))

end Checker

/-- What a definition is found to be: an empty one and one whose brackets do not match are rejected at once, any other
one is passed over from left to right. -/
inductive Checked (text : List Char) : Except Rejection (List Token) → Prop
  | empty (empty : text = []) : Checked text (.error ⟨.empty, -1⟩)
  | unmatched {position : Nat} (unmatched : Brackets.unmatched? text = some position) :
      Checked text (.error ⟨.unmatchedBracket, position⟩)
  | passed {outcome : Except Rejection (List Token)} (nonempty : text ≠ [])
      (matched : Brackets.unmatched? text = none) (pass : Checker.Passes {} 0 text outcome) : Checked text outcome

/-! ## The checker and the walk back -/

namespace Checker

variable {checker : Checker}

/-! ### One token -/

theorem place_operand (leaf : Operand) :
    checker.place (.operand leaf) = if checker.category.opensTerm then .ok (.operand leaf) else .error .misplaced := by
  rw [place, permits, ofToken_operand]
  cases checker.category.opensTerm <;> rfl

theorem place_function {kind : Kind} (h : kind.isFunction) :
    checker.place kind.token = if checker.category.opensTerm then .ok kind.token else .error .misplaced := by
  rw [place, permits, ofToken_function h]
  cases checker.category.opensTerm with
  | false => rfl
  | true => cases kind <;> first | rfl | cases h

theorem place_binary {kind : Kind} (h : kind.isInfix) :
    checker.place kind.token =
      if checker.category.endsTerm then .ok kind.token
      else if kind = .subtract && checker.category.opensTerm && checker.category ≠ .negate then .ok Token.negate
      else .error .misplaced := by
  rw [place, permits, ofToken_binary h]
  cases checker.category <;> cases kind <;> first | rfl | cases h

theorem place_leftParen :
    checker.place Kind.leftParen.token =
      if checker.category.opensTerm || checker.category = .function then .ok Kind.leftParen.token
      else .error .misplaced := by
  rw [place, permits, ofToken_leftParen]
  cases checker.category <;> rfl

theorem place_rightParen :
    checker.place Kind.rightParen.token =
      if !checker.category.endsTerm then .error .misplaced
      else if checker.isComplete then .ok Kind.rightParen.token else .error .argumentCount := rfl

theorem place_comma :
    checker.place Kind.comma.token =
      if !checker.category.endsTerm then .error .misplaced
      else if checker.inCall then .ok Kind.comma.token else .error .comma := rfl

/-! ### The place of the tokenizer -/

/-- A checker is where the tokenizer has accepted the tokens `recent`, newest first, of what stands before a text. The
brackets in the text close those that are open. -/
structure Follows (checker : Checker) (recent : List Token) (text : List Char) : Prop where
  previous : checker.previous = recent.head?
  reached : ∃ before, Reached checker.frames before recent.reverse
  brackets : Bracket.nesting checker.frames.length (text.filterMap Bracket.ofChar?) = some 0

namespace Follows

variable {recent : List Token} {text : List Char}

theorem category_eq (h : checker.Follows recent text) : Formula.previous recent = checker.category := by
  rw [category, h.previous, Formula.previous]

/-- Behind the end of a term, the walk back finds the innermost open bracket. -/
theorem enclosing?_eq (h : checker.Follows recent text) (ends : checker.category.endsTerm) :
    Call.enclosing? recent = Frame.call? checker.frames := by
  obtain ⟨before, reached⟩ := h.reached
  rw [← h.category_eq, ← List.reverse_reverse recent] at ends
  obtain ⟨_, _, _, _, inside, expression, -, ht⟩ := reached.of_endsTerm ends
  rw [← inside.enclosing?_eq expression, ← ht, List.reverse_reverse]

theorem isInside_eq (h : checker.Follows recent text) (ends : checker.category.endsTerm) :
    Call.isInside recent = checker.inCall := by
  rw [Call.isInside, h.enclosing?_eq ends, inCall]
  rcases checker.frames with _ | ⟨_ | _, _⟩ <;> rfl

theorem argumentsFit_eq (h : checker.Follows recent text) (ends : checker.category.endsTerm) :
    Call.argumentsFit recent = checker.isComplete := by
  rw [Call.argumentsFit, h.enclosing?_eq ends, isComplete]
  rcases checker.frames with _ | ⟨_ | ⟨function, given⟩, _⟩
  · rfl
  · rfl
  · simp [Frame.call?, Kind.operator, eq_comm]

/-- The checker and the tokenizer agree about the next lexeme. -/
theorem accept_eq (h : checker.Follows recent text) {lexeme : Token} (hw : lexeme.IsWritten) :
    accept recent lexeme = checker.place lexeme := by
  cases hw with
  | operand leaf => rw [accept_operand, h.category_eq, place_operand]
  | @operator kind hk =>
    rcases Kind.isFunction_or_isInfix hk with hf | hi | rfl | rfl | rfl
    · rw [accept_function hf, h.category_eq, place_function hf]
    · rw [accept_binary hi, h.category_eq, place_binary hi]
    · rw [accept_leftParen, h.category_eq, place_leftParen]
    · rw [accept_rightParen, h.category_eq, place_rightParen]
      cases ends : checker.category.endsTerm with
      | false => rfl
      | true => rw [h.argumentsFit_eq ends]
    · rw [accept_comma, h.category_eq, place_comma]
      cases ends : checker.category.endsTerm with
      | false => rfl
      | true => rw [h.isInside_eq ends]

/-- Behind a lexeme that is accepted, the checker is again where the tokenizer is. -/
theorem step {chars rest : List Char} {lexeme token : Token} (h : checker.Follows recent (chars ++ rest))
    (reads : Lexeme.Reads chars rest lexeme) (places : checker.place lexeme = .ok token) :
    (checker.next token).Follows (token :: recent) rest := by
  have admits : Admits recent lexeme token := by
    rw [← h.accept_eq reads.isWritten] at places
    exact admits_of_accept reads.isWritten places
  obtain ⟨before, reached⟩ := h.reached
  have brackets := h.brackets
  rw [List.filterMap_append, reads.brackets] at brackets
  -- The brackets of the text close all that are open, so a closing one has a partner.
  have partner : lexeme = Kind.rightParen.token → checker.frames ≠ [] := by
    rintro rfl hf
    rw [hf] at brackets
    cases brackets
  rw [← List.reverse_reverse recent] at admits
  obtain ⟨reached', nesting⟩ := reached.step admits partner
  rw [List.reverse_reverse, ← h.previous] at reached' nesting
  rw [Bracket.nesting_append_of_eq nesting] at brackets
  refine ⟨rfl, ⟨before ++ [lexeme], ?_⟩, brackets⟩
  rw [List.reverse_cons]
  exact reached'

end Follows

end Checker

/-! ## One pass and the tokenizer -/

namespace Lexeme

theorem ofText_blank {c : Char} (hb : Text.isBlank c) (position : Nat) (rest : List Char) :
    ofText position (c :: rest) = ofText (position + 1) rest := by
  rw [ofText, if_pos hb]

theorem Reads.ofText_eq {chars rest : List Char} {token : Token} (h : Reads chars rest token) (position : Nat) :
    ofText position (chars ++ rest) = ⟨position, .ok token⟩ :: ofText (position + chars.length) rest := by
  obtain ⟨c, chars, rfl⟩ := List.exists_cons_of_ne_nil h.not_blank.1
  have hb : ¬ Text.isBlank c := by simp [h.not_blank.2 c]
  rw [List.cons_append, ofText, if_neg hb, read_of_reads h]
  simp only [List.drop_left, List.length_cons]
  congr 2
  omega

theorem Fails.ofText_eq {text : List Char} {fault : Fault} (h : Fails text fault) (position : Nat) :
    ofText position text = [⟨position, .error fault⟩] := by
  obtain ⟨c, rest, rfl, hb, hread⟩ := h.read
  rw [ofText, if_neg hb, hread]

end Lexeme

theorem acceptAll_cons (recent : List Token) (position : Nat) (lexeme : Token) (rest : List Lexeme) :
    acceptAll recent (⟨position, .ok lexeme⟩ :: rest) =
      match accept recent lexeme with
      | .error fault => .error ⟨fault, position⟩
      | .ok token => acceptAll (token :: recent) rest := by
  rw [acceptAll]
  rfl

/-- What the tokens of a text with `length` characters come to, once none of its lexemes is at fault. -/
def conclude (length : Nat) : Except Rejection (List Token) → Except Rejection (List Token)
  | .error rejection => .error rejection
  | .ok [] => .error ⟨.noTokens, 0⟩
  | .ok (last :: before) =>
    if (Category.ofToken last).endsTerm then .ok (last :: before).reverse else .error ⟨.openEnd, length - 1⟩

theorem tokensOf_eq_conclude {text : List Char} (nonempty : text ≠ []) (matched : Brackets.unmatched? text = none) :
    tokensOf text = conclude text.length (acceptAll [] (Lexeme.ofText 0 text)) := by
  rw [tokensOf, if_neg (by simpa using nonempty), matched]
  simp only
  cases acceptAll [] (Lexeme.ofText 0 text) with
  | error => rfl
  | ok final => cases final <;> rfl

namespace Checker

theorem follows_start {text : List Char} (matched : Brackets.unmatched? text = none) :
    ({} : Checker).Follows [] text :=
  ⟨rfl, ⟨[], .opens .outside .start⟩, unmatchedFrom?_eq_none_iff.1 matched⟩

/-- A pass comes to what the tokenizer finds behind the tokens that it has accepted. -/
theorem Passes.conclude_eq {checker : Checker} {position : Nat} {text : List Char}
    {outcome : Except Rejection (List Token)} (h : Passes checker position text outcome) {recent : List Token}
    (follows : checker.Follows recent text) :
    conclude (position + text.length) (acceptAll recent (Lexeme.ofText position text)) =
      outcome.map (recent.reverse ++ ·) := by
  induction h generalizing recent with
  | done ends =>
    rw [← follows.category_eq] at ends
    cases recent with
    | nil => cases ends
    | cons last before =>
      rw [previous_cons] at ends
      rw [Lexeme.ofText, acceptAll, conclude, if_pos ends, Except.map, List.append_nil]
  | noTokens blank =>
    rw [follows.previous, List.head?_eq_none_iff] at blank
    rw [blank, Lexeme.ofText]
    rfl
  | openEnd begun ends =>
    rw [← follows.category_eq] at ends
    cases recent with
    | nil => exact absurd follows.previous begun
    | cons last before =>
      rw [previous_cons] at ends
      rw [Lexeme.ofText, acceptAll, conclude, if_neg ends]
      rfl
  | @blank checker position c rest outcome hb _ ih =>
    have brackets := follows.brackets
    rw [List.filterMap_cons_none (Lexeme.ofChar?_of_isBlank hb)] at brackets
    rw [Lexeme.ofText_blank hb, ← ih ⟨follows.previous, follows.reached, brackets⟩, List.length_cons,
      Nat.add_right_comm, Nat.add_assoc]
  | unreadable fails =>
    rw [fails.ofText_eq]
    rfl
  | rejected reads rejects =>
    rw [← follows.accept_eq reads.isWritten] at rejects
    rw [reads.ofText_eq, acceptAll_cons, rejects]
    rfl
  | @accepted checker position chars rest lexeme token outcome reads places _ ih =>
    have follows' := follows.step reads places
    rw [← follows.accept_eq reads.isWritten] at places
    rw [reads.ofText_eq, acceptAll_cons, places, List.length_append, ← Nat.add_assoc]
    simp only
    rw [ih follows', List.reverse_cons]
    cases outcome <;> simp [Except.map]

/-- Whatever a text is like, a pass over it comes to some outcome. -/
theorem exists_passes (checker : Checker) (position : Nat) (text : List Char) :
    ∃ outcome, Passes checker position text outcome := by
  fun_induction Lexeme.ofText position text generalizing checker with
  | case1 position =>
    by_cases begun : checker.previous = none
    · exact ⟨_, .noTokens begun⟩
    · by_cases ends : checker.category.endsTerm
      · exact ⟨_, .done ends⟩
      · exact ⟨_, .openEnd begun ends⟩
  | case2 position c rest hb ih =>
    obtain ⟨outcome, pass⟩ := ih checker
    exact ⟨outcome, .blank hb pass⟩
  | case3 position c rest hb fault hread => exact ⟨_, .unreadable (Lexeme.fails_of_read hb hread)⟩
  | case4 position c rest hb token more hread ih =>
    obtain ⟨chars, rest, rfl, rfl, reads⟩ := Lexeme.reads_of_read hread
    cases hplace : checker.place token with
    | error fault => exact ⟨_, .rejected reads hplace⟩
    | ok placed =>
      obtain ⟨outcome, pass⟩ := ih (checker.next placed)
      rw [List.drop_left, Nat.add_assoc, Nat.add_comm 1] at pass
      exact ⟨_, .accepted reads hplace pass⟩

end Checker

/-- The tokenizer finds what one pass from left to right finds: the tokens of a definition, or its first fault. -/
theorem tokenize_eq_iff_checked (definition : String) (outcome : Except Rejection (List Token)) :
    tokenize definition = outcome ↔ Checked definition.toList outcome := by
  have sound : ∀ outcome, Checked definition.toList outcome → tokenize definition = outcome := by
    intro outcome h
    cases h with
    | empty empty =>
      rw [tokenize, empty]
      rfl
    | unmatched unmatched =>
      have nonempty : definition.toList ≠ [] := by
        intro empty
        rw [empty] at unmatched
        cases unmatched
      rw [tokenize, tokensOf, if_neg (by simpa using nonempty), unmatched]
    | passed nonempty matched pass =>
      have := pass.conclude_eq (Checker.follows_start matched)
      rw [Nat.zero_add, ← tokensOf_eq_conclude nonempty matched] at this
      rw [tokenize, this]
      cases outcome <;> rfl
  constructor
  · rintro rfl
    -- The tokenizer always finds something, and so does the checker: what the tokenizer finds.
    have ⟨outcome, h⟩ : ∃ outcome, Checked definition.toList outcome := by
      by_cases empty : definition.toList = []
      · exact ⟨_, .empty empty⟩
      · cases hu : Brackets.unmatched? definition.toList with
        | some position => exact ⟨_, .unmatched hu⟩
        | none =>
          obtain ⟨outcome, pass⟩ := Checker.exists_passes {} 0 definition.toList
          exact ⟨outcome, .passed empty hu pass⟩
    rwa [sound outcome h]
  · exact sound outcome

end Formula
