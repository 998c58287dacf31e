import Formula.Proofs.Dyck
/-!
# The walk back

Whether a place lies among the arguments of a function is found by walking back over the tokens, whatever they are.
Reading them forward says the same: the walk ends at the innermost bracket that stays open (`innermost?`), and counts
the commas behind it that lie in no pair of brackets, and the argument behind the last of them (`given`). Brackets need
not match for that (`openBracket?_reverse`). What is counted on the way through a definition are the arguments that the
grammar finds there (`walk_reads_forward`).
-/

namespace Formula

open Formula.Bracket

namespace Call

/-! ## Reading forward -/

/-- The place of the innermost bracket that stays open behind some tokens. -/
def innermost? (tokens : List Token) : Option Nat :=
  (opened (tokens.map ofToken?)).head?

def isComma (tokens : List Token) (place : Nat) : Bool :=
  tokens[place]?.bind Token.kind? = some .comma

/-- The places of the commas behind a bracket that lie in no pair of brackets. -/
def commas (tokens : List Token) (bracket : Nat) : List Nat :=
  (List.range tokens.length).filter fun place =>
    bracket < place ∧ isComma tokens place ∧ ¬ Enclosed (tokens.map ofToken?) place

/-- Some of the tokens behind a place are no brackets. -/
def someBehind (tokens : List Token) (place : Nat) : Bool :=
  (tokens.drop (place + 1)).any fun token => (ofToken? token).isNone

/-- The number of arguments behind a bracket: one before each comma, and one behind the last comma if anything but
brackets stands there. -/
def given (tokens : List Token) (bracket : Nat) : Nat :=
  (commas tokens bracket).length + if someBehind tokens ((commas tokens bracket).getLast?.getD bracket) then 1 else 0

/-- The innermost bracket that stays open is one of a call. -/
structure OpenCall (tokens : List Token) (function : Operator) (bracket : Nat) : Prop where
  innermost : innermost? tokens = some bracket
  behind : 0 < bracket
  called : tokens[bracket - 1]? = some (.operator function)
  isFunction : Category.ofOperator function = .function

/-! ## One step of the walk -/

section Step

variable {tokens : List Token} {token : Token} {bracket closed arguments : Nat}

theorem openBracket?_closing (h : token.kind? = some .rightParen) :
    openBracket? closed arguments (token :: tokens) = openBracket? (closed + 1) arguments tokens := by
  simp only [openBracket?, h]

theorem openBracket?_opening (h : token.kind? = some .leftParen) :
    openBracket? closed arguments (token :: tokens) =
      if closed = 0 then some (arguments, tokens) else openBracket? (closed - 1) arguments tokens := by
  simp only [openBracket?, h]

theorem openBracket?_separator (h : token.kind? = some .comma) :
    openBracket? closed arguments (token :: tokens) =
      if closed = 0 then openBracket? closed (arguments + 1) tokens
      else openBracket? closed (max arguments 1) tokens := by
  simp only [openBracket?, h]

end Step

/-! ## Counting arguments -/

/-- The places of the commas for which a bracket is the innermost open one. -/
def commasIn (tokens : List Token) (bracket : Nat) : List Nat :=
  (List.range tokens.length).filter fun place => isComma tokens place ∧ innermost? (tokens.take place) = some bracket

/-- What the walk has counted when it comes back to a bracket, if it began with so many arguments. -/
def counted (tokens : List Token) (bracket arguments : Nat) : Nat :=
  (commasIn tokens bracket).length +
    if someBehind tokens ((commasIn tokens bracket).getLast?.getD bracket) then max arguments 1 else arguments

section Count

variable {tokens : List Token} {token : Token} {bracket arguments : Nat}

theorem commasIn_concat (tokens : List Token) (token : Token) (bracket : Nat) :
    commasIn (tokens ++ [token]) bracket =
      commasIn tokens bracket ++
        if token.kind? = some .comma ∧ innermost? tokens = some bracket then [tokens.length] else [] := by
  have before : (List.range tokens.length).filter (fun place =>
      isComma (tokens ++ [token]) place ∧ innermost? ((tokens ++ [token]).take place) = some bracket) =
      commasIn tokens bracket := by
    refine List.filter_congr fun place hp => ?_
    have hp := List.mem_range.1 hp
    rw [isComma, isComma, List.getElem?_append_left hp, List.take_append_of_le_length (Nat.le_of_lt hp)]
  rw [commasIn, List.length_append, List.length_singleton, List.range_succ, List.filter_append, before]
  congr 1
  by_cases h : token.kind? = some .comma ∧ innermost? tokens = some bracket
  · simp [isComma, h]
  · rw [if_neg h]
    simpa [isComma] using h

theorem last_lt (h : bracket < tokens.length) : (commasIn tokens bracket).getLast?.getD bracket < tokens.length := by
  cases hl : (commasIn tokens bracket).getLast? with
  | none => exact h
  | some last => exact List.mem_range.1 (List.mem_of_mem_filter (List.mem_of_getLast? hl))

theorem someBehind_concat {place : Nat} (h : place < tokens.length) :
    someBehind (tokens ++ [token]) place = (someBehind tokens place || (ofToken? token).isNone) := by
  rw [someBehind, List.drop_append_of_le_length h, List.any_append]
  simp [someBehind]

theorem counted_comma (h : token.kind? = some .comma) (here : innermost? tokens = some bracket) :
    counted (tokens ++ [token]) bracket arguments = counted tokens bracket (arguments + 1) := by
  have nothing : someBehind (tokens ++ [token]) tokens.length = false := by
    simp [someBehind]
  rw [counted, counted, commasIn_concat, if_pos ⟨h, here⟩, List.length_append, List.getLast?_concat, Option.getD_some,
    nothing]
  simp only [List.length_singleton, Bool.false_eq_true, if_false]
  split <;> omega

/-- What is neither a bracket nor a comma between arguments belongs to the argument that ends there. -/
theorem counted_other (h : ofToken? token = none) (inside : bracket < tokens.length)
    (deep : ¬ (token.kind? = some .comma ∧ innermost? tokens = some bracket)) :
    counted (tokens ++ [token]) bracket arguments = counted tokens bracket (max arguments 1) := by
  rw [counted, counted, commasIn_concat, if_neg deep, List.append_nil, someBehind_concat (last_lt inside), h]
  simp

theorem counted_bracket {kind : Bracket} (h : ofToken? token = some kind) (inside : bracket < tokens.length) :
    counted (tokens ++ [token]) bracket arguments = counted tokens bracket arguments := by
  have deep : ¬ (token.kind? = some .comma ∧ innermost? tokens = some bracket) := by
    rintro ⟨comma, -⟩
    simp [ofToken?, comma] at h
  rw [counted, counted, commasIn_concat, if_neg deep, List.append_nil, someBehind_concat (last_lt inside), h]
  simp

theorem lt_of_innermost? (h : innermost? tokens = some bracket) : bracket < tokens.length := by
  have := lt_of_mem_opened (List.mem_of_head? h)
  rwa [List.length_map] at this

/-- Next to the bracket nothing has been counted yet. -/
theorem counted_here (tokens : List Token) (token : Token) (arguments : Nat) :
    counted (tokens ++ [token]) tokens.length arguments = arguments := by
  have none : commasIn (tokens ++ [token]) tokens.length = [] := by
    refine List.filter_eq_nil_iff.2 fun place hp => ?_
    have hp := List.mem_range.1 hp
    rw [List.length_append, List.length_singleton] at hp
    simp only [decide_eq_true_eq, not_and]
    intro _ here
    have := lt_of_innermost? here
    rw [List.length_take] at this
    omega
  rw [counted, none]
  simp [someBehind]

end Count

/-! ## The whole walk -/

/-- What the walk has counted when it comes back to a bracket, and the tokens before the bracket. -/
def found (tokens : List Token) (arguments bracket : Nat) : Nat × List Token :=
  (counted tokens bracket arguments, (tokens.take bracket).reverse)

section Walk

variable {tokens : List Token} {token : Token} {bracket closed arguments arguments' : Nat}

/-- A last token other than the bracket itself only changes what is counted. -/
theorem found_concat (h : ∀ bracket, (opened (tokens.map ofToken?))[closed]? = some bracket → bracket < tokens.length →
      counted (tokens ++ [token]) bracket arguments = counted tokens bracket arguments') :
    (opened (tokens.map ofToken?))[closed]?.map (found (tokens ++ [token]) arguments) =
      (opened (tokens.map ofToken?))[closed]?.map (found tokens arguments') := by
  refine Option.map_congr fun bracket hb => ?_
  have inside : bracket < tokens.length := by
    simpa using lt_of_mem_opened (List.mem_of_getElem? hb)
  rw [found, found, h bracket hb inside, List.take_append_of_le_length (Nat.le_of_lt inside)]

theorem found_bracket {kind : Bracket} (h : ofToken? token = some kind) :
    (opened (tokens.map ofToken?))[closed]?.map (found (tokens ++ [token]) arguments) =
      (opened (tokens.map ofToken?))[closed]?.map (found tokens arguments) :=
  found_concat fun _ _ inside => counted_bracket h inside

/-- The walk back passes as many brackets as are still to be opened, and ends at the next one that is open. -/
theorem openBracket?_reverse (tokens : List Token) (closed arguments : Nat) :
    openBracket? closed arguments tokens.reverse =
      (opened (tokens.map ofToken?))[closed]?.map (found tokens arguments) := by
  induction tokens using List.reverseRecOn generalizing closed arguments with
  | nil => rfl
  | append_singleton tokens token ih =>
    rw [List.reverse_concat, List.map_append, List.map_singleton, opened_concat, List.length_map]
    by_cases closing : token.kind? = some .rightParen
    · have bracket : ofToken? token = some .closing := by rw [ofToken?, closing]
      rw [openBracket?_closing closing, ih, bracket, openedBehind, List.getElem?_tail, found_bracket bracket]
    by_cases opening : token.kind? = some .leftParen
    · have bracket : ofToken? token = some .opening := by rw [ofToken?, opening]
      rw [openBracket?_opening opening, bracket, openedBehind]
      cases closed with
      | zero =>
        rw [if_pos rfl, List.getElem?_cons_zero, Option.map_some, found, counted_here, List.take_left]
      | succ closed =>
        rw [if_neg (Nat.succ_ne_zero closed), List.getElem?_cons_succ, found_bracket bracket, Nat.add_sub_cancel, ih]
    have other : ofToken? token = none := by
      unfold ofToken?
      split <;> simp_all
    rw [other, openedBehind]
    by_cases comma : token.kind? = some .comma
    · rw [openBracket?_separator comma]
      cases closed with
      | zero =>
        rw [if_pos rfl, ih, found_concat]
        intro bracket hb _
        rw [← List.head?_eq_getElem?] at hb
        exact counted_comma comma hb
      | succ closed =>
        rw [if_neg (Nat.succ_ne_zero closed), ih, found_concat]
        exact fun bracket hb inside => counted_other other inside fun h => head?_opened_ne hb h.2
    · rw [openBracket?_cons opening closing comma, ih, found_concat]
      exact fun bracket _ inside => counted_other other inside fun h => comma h.1

/-- Between the innermost open bracket and the end, the commas of its own are those in no pair. -/
theorem commasIn_eq (h : innermost? tokens = some bracket) : commasIn tokens bracket = commas tokens bracket := by
  refine List.filter_congr fun place _ => decide_eq_decide.2 ?_
  by_cases comma : isComma tokens place
  · have other : (tokens.map ofToken?)[place]? = some none := by
      obtain ⟨token, ht, hk⟩ := Option.bind_eq_some_iff.1 (of_decide_eq_true comma)
      rw [List.getElem?_map, ht, Option.map_some, ofToken?, hk]
    rw [innermost?, List.map_take, head?_opened_take_iff h other]
    simp [comma]
  · simp [comma]

theorem counted_eq_given (h : innermost? tokens = some bracket) : counted tokens bracket 0 = given tokens bracket := by
  rw [counted, given, commasIn_eq h, Nat.zero_max]

/-- The whole walk finds the innermost bracket that stays open, and the number of arguments behind it. -/
theorem openBracket?_eq (tokens : List Token) :
    openBracket? 0 0 tokens.reverse =
      (innermost? tokens).map fun bracket => (given tokens bracket, (tokens.take bracket).reverse) := by
  rw [openBracket?_reverse, ← List.head?_eq_getElem?]
  exact Option.map_congr fun bracket h => by rw [found, counted_eq_given h]

/-! ## The enclosing call -/

theorem enclosing?_eq_some_iff_openBracket? {recent : List Token} {function : Operator} {count : Nat} :
    enclosing? recent = some (function, count) ↔ ∃ before, openBracket? 0 0 recent = some (count, before) ∧
      before.head? = some (.operator function) ∧ Category.ofOperator function = .function := by
  unfold enclosing?
  split
  · next arguments operator before heq =>
    rw [heq]
    constructor
    · intro h
      split at h
      · next hf =>
        cases h
        exact ⟨_, rfl, rfl, hf⟩
      · cases h
    · rintro ⟨_, ⟨⟩, ⟨⟩, hf⟩
      exact if_pos hf
  · next hno =>
    simp only [reduceCtorEq, false_iff, not_exists, not_and]
    rintro (_ | ⟨token, before⟩) walk ⟨⟩
    exact absurd walk (hno count function before)

/-- The token before a bracket is the last one of those that the walk leaves. -/
theorem head?_reverse_take (h : bracket < tokens.length) (token : Token) :
    (tokens.take bracket).reverse.head? = some token ↔ 0 < bracket ∧ tokens[bracket - 1]? = some token := by
  rw [List.head?_reverse, List.getLast?_take]
  cases bracket with
  | zero => simp
  | succ bracket =>
    have inside : bracket < tokens.length := Nat.lt_of_succ_lt h
    simp [inside]

theorem enclosing?_eq_some_iff {function : Operator} {count : Nat} :
    enclosing? tokens.reverse = some (function, count) ↔
      ∃ bracket, OpenCall tokens function bracket ∧ count = given tokens bracket := by
  rw [enclosing?_eq_some_iff_openBracket?, openBracket?_eq]
  constructor
  · rintro ⟨_, walk, head, isFunction⟩
    obtain ⟨bracket, innermost, same⟩ := Option.map_eq_some_iff.1 walk
    obtain ⟨rfl, rfl⟩ := Prod.mk.inj same
    obtain ⟨behind, called⟩ := (head?_reverse_take (lt_of_innermost? innermost) _).1 head
    exact ⟨bracket, ⟨innermost, behind, called, isFunction⟩, rfl⟩
  · rintro ⟨bracket, ⟨innermost, behind, called, isFunction⟩, rfl⟩
    refine ⟨_, by rw [innermost, Option.map_some], ?_, isFunction⟩
    exact (head?_reverse_take (lt_of_innermost? innermost) _).2 ⟨behind, called⟩

theorem isInside_iff : isInside tokens.reverse ↔ ∃ function bracket, OpenCall tokens function bracket := by
  simp [isInside, Option.isSome_iff_exists, enclosing?_eq_some_iff]

theorem argumentsFit_eq_false_iff : argumentsFit tokens.reverse = false ↔
    ∃ function bracket, OpenCall tokens function bracket ∧ function.arity ≠ given tokens bracket := by
  constructor
  · intro h
    rw [argumentsFit] at h
    cases hc : enclosing? tokens.reverse with
    | none =>
      rw [hc] at h
      cases h
    | some enclosing =>
      rw [hc] at h
      obtain ⟨bracket, call, count⟩ := enclosing?_eq_some_iff.1 hc
      exact ⟨enclosing.1, bracket, call, by simpa [← count] using h⟩
  · rintro ⟨function, bracket, call, unfit⟩
    rw [argumentsFit, enclosing?_eq_some_iff.2 ⟨bracket, call, rfl⟩]
    simpa using unfit

end Walk

end Call

/-! ## On the way through a definition -/

theorem Checker.Follows.passed {checker : Checker} {recent final : List Token} {position : Nat} {text : List Char}
    {passed ahead : List Lexeme} (h : checker.Follows recent text)
    (split : Lexeme.ofText position text = passed ++ ahead) (accepted : acceptAll recent passed = .ok final) :
    ∃ (checker' : Checker) (rest : List Char), checker'.Follows final rest := by
  fun_induction Lexeme.ofText position text generalizing checker recent passed with
  | case1 position =>
    obtain ⟨rfl, -⟩ := List.append_eq_nil_iff.1 split.symm
    obtain rfl := Except.ok.inj accepted
    exact ⟨checker, _, h⟩
  | case2 position c rest hb ih =>
    have brackets := h.brackets
    rw [List.filterMap_cons_none (Lexeme.ofChar?_of_isBlank hb)] at brackets
    exact ih ⟨h.previous, h.reached, brackets⟩ split accepted
  | case3 position c rest hb fault hread =>
    cases passed with
    | nil =>
      obtain rfl := Except.ok.inj accepted
      exact ⟨checker, _, h⟩
    | cons lexeme passed =>
      obtain ⟨rfl, -⟩ := List.cons.inj split
      cases accepted
  | case4 position c rest hb token more hread ih =>
    cases passed with
    | nil =>
      obtain rfl := Except.ok.inj accepted
      exact ⟨checker, _, h⟩
    | cons lexeme passed =>
      obtain ⟨rfl, behind⟩ := List.cons.inj split
      obtain ⟨chars, rest, rfl, rfl, reads⟩ := Lexeme.reads_of_read hread
      obtain ⟨placed, ha, accepted⟩ := acceptAll_cons_eq_ok_iff.1 accepted
      rw [h.accept_eq reads.isWritten] at ha
      rw [List.drop_left] at ih behind
      exact ih (h.step reads ha) behind accepted

/-- Whatever the tokenizer has accepted on its way leads to a place of the grammar. -/
theorem Scans.reached {text : List Char} {tokens : List Token} {ahead : List Lexeme} (h : Scans text tokens ahead) :
    ∃ frames before, Reached frames before tokens := by
  obtain ⟨passed, split, accepted⟩ := h.accepted
  obtain ⟨checker, rest, follows⟩ := (Checker.follows_start h.matched).passed split accepted
  obtain ⟨before, reached⟩ := follows.reached
  exact ⟨checker.frames, before, by rwa [List.reverse_reverse] at reached⟩

namespace Call

variable {tokens lexemes : List Token} {bracket count : Nat}

/-- Behind a bracket and arguments, the bracket is the innermost one that is open, and the walk counts the arguments. -/
theorem innermost?_of_derives (front : List Token) {after : List Token} (h : Derives (.arguments count) lexemes after) :
    innermost? (front ++ Kind.leftParen.token :: after) = some front.length ∧
      given (front ++ Kind.leftParen.token :: after) front.length = count := by
  have positive := h.arguments_pos
  have walk : openBracket? 0 0 (front ++ Kind.leftParen.token :: after).reverse = some (count, front.reverse) := by
    rw [List.reverse_append, List.reverse_cons, List.append_assoc, h.openBracket?_eq, List.singleton_append,
      openBracket?_found, Phrase.commas]
    congr 2
    omega
  rw [openBracket?_eq] at walk
  obtain ⟨bracket, innermost, same⟩ := Option.map_eq_some_iff.1 walk
  obtain ⟨counted, before⟩ := Prod.mk.inj same
  have inside := lt_of_innermost? innermost
  have here : bracket = front.length := by
    have := congrArg List.length before
    simp only [List.length_reverse, List.length_take] at this
    omega
  subst here
  exact ⟨innermost, counted⟩

theorem innermost?_eq_none_of_derives {phrase : Phrase} {after : List Token} (h : Derives phrase lexemes after) :
    innermost? after = none := by
  have walk := h.openBracket?_eq 0 []
  rw [List.append_nil, openBracket?_eq] at walk
  exact Option.map_eq_none_iff.1 walk

/-- An expression in a bracket ends a row of arguments that begins behind the bracket. -/
theorem exists_arguments {frame : Frame} {frames : List Frame} {before last last' : List Token}
    (h : Inside (frame :: frames) before tokens) (expression : Derives .expression last last') :
    ∃ front after count lexemes, tokens ++ last' = front ++ Kind.leftParen.token :: after ∧
      Derives (.arguments count) lexemes after := by
  cases h with
  | @group _ _ _ outer _ lead => exact ⟨outer ++ lead, last', 1, last, by simp, .one expression⟩
  | @call _ _ function _ _ outer _ lead _ _ _ _ _ begun =>
    cases begun with
    | none => exact ⟨outer ++ lead ++ [function.token], last', 1, last, by simp, .one expression⟩
    | some arguments => exact ⟨outer ++ lead ++ [function.token], _, _, _, by simp, .more arguments expression⟩

/-- Behind the end of a term, the walk counts the arguments that the grammar finds behind the innermost open bracket. -/
theorem derives_arguments_iff {frames : List Frame} {before : List Token} (h : Reached frames before tokens)
    (ends : (previous tokens.reverse).endsTerm) (innermost : innermost? tokens = some bracket) :
    (∃ lexemes, Derives (.arguments count) lexemes (tokens.drop (bracket + 1))) ↔ count = given tokens bracket := by
  obtain ⟨_, _, _, last', inside, expression, -, rfl⟩ := h.of_endsTerm ends
  cases frames with
  | nil =>
    cases inside
    rw [List.nil_append, innermost?_eq_none_of_derives expression] at innermost
    cases innermost
  | cons frame frames =>
    obtain ⟨front, after, total, lexemes, split, arguments⟩ := exists_arguments inside expression
    rw [split] at innermost ⊢
    obtain ⟨here, counted⟩ := innermost?_of_derives front arguments
    rw [here] at innermost
    obtain rfl := Option.some.inj innermost
    have rest : (front ++ Kind.leftParen.token :: after).drop (front.length + 1) = after := by simp
    rw [rest]
    constructor
    · rintro ⟨_, derives⟩
      exact (innermost?_of_derives front derives).2.symm
    · rintro rfl
      rw [counted]
      exact ⟨lexemes, arguments⟩

end Call

/-- Walking back over any tokens finds what reading them forward finds: the innermost bracket that stays open, and the
arguments behind it by their commas. So a place lies among the arguments of a function iff that bracket stands behind a
function, and a closing bracket fits there unless the function takes another number of arguments. Where the tokenizer
has come to the end of a term, the arguments are those of the grammar. -/
theorem walk_reads_forward (tokens : List Token) :
    Call.openBracket? 0 0 tokens.reverse = (Call.innermost? tokens).map (fun bracket =>
        (Call.given tokens bracket, (tokens.take bracket).reverse)) ∧
      (Call.isInside tokens.reverse ↔ ∃ function bracket, Call.OpenCall tokens function bracket) ∧
      (Call.argumentsFit tokens.reverse = false ↔ ∃ function bracket, Call.OpenCall tokens function bracket ∧
        function.arity ≠ Call.given tokens bracket) ∧
      ∀ text ahead, Scans text tokens ahead → (previous tokens.reverse).endsTerm →
        ∀ bracket, Call.innermost? tokens = some bracket → ∀ count,
          (∃ lexemes, Derives (.arguments count) lexemes (tokens.drop (bracket + 1))) ↔
            count = Call.given tokens bracket := by
  refine ⟨Call.openBracket?_eq tokens, Call.isInside_iff, Call.argumentsFit_eq_false_iff, ?_⟩
  intro text ahead scans ends bracket innermost count
  obtain ⟨frames, before, reached⟩ := scans.reached
  exact Call.derives_arguments_iff reached ends innermost

/-- A comma between two brackets parts no arguments of the call around them, but belongs to an argument. On the way
through a call in a call, two arguments of the outer one have been written. -/
theorem walk_reads_forward_nested :
    Call.argumentsFit [Kind.rightParen.token, Kind.sin.token, Kind.leftParen.token, Kind.leftParen.token,
        Kind.comma.token, Kind.rightParen.token].reverse ∧
      Scans "pow(atan2(x,pi),x-1)".toList [Kind.pow.token, Kind.leftParen.token, Kind.atan2.token, Kind.leftParen.token,
        .operand .x, Kind.comma.token, .operand .pi, Kind.rightParen.token, Kind.comma.token, .operand .x]
        ((Lexeme.ofText 0 "pow(atan2(x,pi),x-1)".toList).drop 10) ∧
      ∃ lexemes, Derives (.arguments 2) lexemes [Kind.atan2.token, Kind.leftParen.token,
        .operand .x, Kind.comma.token, .operand .pi, Kind.rightParen.token, Kind.comma.token, .operand .x] := by
  have scans : Scans "pow(atan2(x,pi),x-1)".toList [Kind.pow.token, Kind.leftParen.token, Kind.atan2.token,
      Kind.leftParen.token, .operand .x, Kind.comma.token, .operand .pi, Kind.rightParen.token, Kind.comma.token,
      .operand .x] ((Lexeme.ofText 0 "pow(atan2(x,pi),x-1)".toList).drop 10) :=
    ⟨by decide, by decide, _, (List.take_append_drop 10 _).symm, by decide +kernel⟩
  refine ⟨?_, scans, ((walk_reads_forward _).2.2.2 _ _ scans rfl 1 (by decide +kernel) 2).2 (by decide +kernel)⟩
  rw [← Bool.not_eq_false, (walk_reads_forward _).2.2.1]
  rintro ⟨function, bracket, call, unfit⟩
  obtain rfl : 2 = bracket := Option.some.inj (Eq.trans (by decide) call.innermost)
  obtain rfl : Kind.sin.operator = function := Token.operator.inj (Option.some.inj call.called)
  exact unfit (by decide)

end Formula
