import Formula.Definition.Tokens
import Formula.Proofs.Grammar
import Formula.Proofs.Nesting
/-!
# What is accepted

A lexeme is accepted by what precedes it alone. `tokensOf_eq_ok_iff_derives` shows that this accepts the texts that the
grammar derives and no others, and gives them the tokens of their derivation. One direction follows a derivation
(`Derives.admitted`). The other keeps track of the brackets that are open (`Reached`): what is accepted inside of each
is the beginning of an expression, or of the arguments of a call.
-/

namespace Formula

/-- The tokens that definitions are written with: every minus is read as a subtraction. -/
inductive Token.IsWritten : Token → Prop
  | operand (leaf : Operand) : IsWritten (.operand leaf)
  | operator {kind : Kind} (h : kind ≠ .negate) : IsWritten kind.token

/-- After the tokens `recent`, newest first, a written token is taken for a token. -/
inductive Admits (recent : List Token) : Token → Token → Prop
  | operand (leaf : Operand) (opens : (previous recent).opensTerm) : Admits recent (.operand leaf) (.operand leaf)
  | function {kind : Kind} (isFunction : kind.isFunction) (opens : (previous recent).opensTerm) :
      Admits recent kind.token kind.token
  | opening (opens : (previous recent).opensTerm ∨ previous recent = .function) :
      Admits recent Kind.leftParen.token Kind.leftParen.token
  | closing (ends : (previous recent).endsTerm) (fit : Call.argumentsFit recent) :
      Admits recent Kind.rightParen.token Kind.rightParen.token
  | comma (ends : (previous recent).endsTerm) (inside : Call.isInside recent) :
      Admits recent Kind.comma.token Kind.comma.token
  | infixed {kind : Kind} (isInfix : kind.isInfix) (ends : (previous recent).endsTerm) :
      Admits recent kind.token kind.token
  | sign (opens : (previous recent).opensTerm) (unsigned : previous recent ≠ .negate) :
      Admits recent Kind.subtract.token Kind.negate.token

/-! ## One lexeme -/

theorem accept_operand (leaf : Operand) (recent : List Token) :
    accept recent (.operand leaf) =
      if (previous recent).opensTerm then .ok (.operand leaf) else .error .misplaced := rfl

theorem accept_function {kind : Kind} (h : kind.isFunction) (recent : List Token) :
    accept recent kind.token = if (previous recent).opensTerm then .ok kind.token else .error .misplaced := by
  simp only [Kind.token, accept, Kind.operator, h, if_true, previous]

theorem accept_leftParen (recent : List Token) :
    accept recent Kind.leftParen.token =
      if (previous recent).opensTerm || previous recent = .function then .ok Kind.leftParen.token
      else .error .misplaced := rfl

theorem accept_rightParen (recent : List Token) :
    accept recent Kind.rightParen.token =
      if !(previous recent).endsTerm then .error .misplaced
      else if Call.argumentsFit recent then .ok Kind.rightParen.token else .error .argumentCount := rfl

theorem accept_comma (recent : List Token) :
    accept recent Kind.comma.token =
      if !(previous recent).endsTerm then .error .misplaced
      else if Call.isInside recent then .ok Kind.comma.token else .error .comma := rfl

theorem accept_binary {kind : Kind} (h : kind.isInfix) (recent : List Token) :
    accept recent kind.token =
      if (previous recent).endsTerm then .ok kind.token
      else if kind = .subtract && (previous recent).opensTerm && previous recent ≠ .negate then .ok Token.negate
      else .error .misplaced := by
  cases kind <;> first | rfl | cases h

theorem Kind.isFunction_or_isInfix {kind : Kind} (h : kind ≠ .negate) :
    kind.isFunction ∨ kind.isInfix ∨ kind = .leftParen ∨ kind = .rightParen ∨ kind = .comma := by
  revert h; cases kind <;> decide

theorem admits_of_accept {recent : List Token} {lexeme token : Token} (hw : lexeme.IsWritten)
    (h : accept recent lexeme = .ok token) : Admits recent lexeme token := by
  cases hw with
  | operand leaf =>
    rw [accept_operand] at h
    split at h
    · next ho => cases h; exact .operand leaf ho
    · cases h
  | @operator kind hk =>
    rcases Kind.isFunction_or_isInfix hk with hf | hi | rfl | rfl | rfl
    · rw [accept_function hf] at h
      split at h
      · next ho => cases h; exact .function hf ho
      · cases h
    · rw [accept_binary hi] at h
      split at h
      · next he => cases h; exact .infixed hi he
      · split at h
        · next hs =>
          simp only [Bool.and_eq_true, decide_eq_true_eq] at hs
          obtain ⟨⟨rfl, ho⟩, hn⟩ := hs
          cases h; exact .sign ho hn
        · cases h
    · rw [accept_leftParen] at h
      split at h
      · next ho => cases h; exact .opening (by simpa using ho)
      · cases h
    · rw [accept_rightParen] at h
      split at h
      · cases h
      · next he =>
        split at h
        · next hf => cases h; exact .closing (by simpa using he) hf
        · cases h
    · rw [accept_comma] at h
      split at h
      · cases h
      · next he =>
        split at h
        · next hi => cases h; exact .comma (by simpa using he) hi
        · cases h

theorem Admits.accept_eq {recent : List Token} {lexeme token : Token} (h : Admits recent lexeme token) :
    accept recent lexeme = .ok token := by
  cases h with
  | operand leaf ho => rw [accept_operand, if_pos ho]
  | function hf ho => rw [accept_function hf, if_pos ho]
  | opening ho => rw [accept_leftParen, if_pos (by simpa using ho)]
  | closing he hf => rw [accept_rightParen, if_neg (by simp [he]), if_pos hf]
  | comma he hi => rw [accept_comma, if_neg (by simp [he]), if_pos hi]
  | infixed hi he => rw [accept_binary hi, if_pos he]
  | sign ho hn =>
    have he : ¬ (previous recent).endsTerm := fun he => by
      rw [Category.opensTerm_eq_false_of_endsTerm he] at ho; cases ho
    rw [accept_binary rfl, if_neg he, if_pos (by simp [ho, hn])]
    rfl

theorem accept_eq_ok_iff {recent : List Token} {lexeme token : Token} (hw : lexeme.IsWritten) :
    accept recent lexeme = .ok token ↔ Admits recent lexeme token :=
  ⟨admits_of_accept hw, Admits.accept_eq⟩

/-! ## A row of lexemes -/

/-- After the tokens `recent` lexemes are accepted one by one, which leads to the tokens `final`, newest first. -/
inductive Admitted : List Token → List Token → List Token → Prop
  | nil (recent : List Token) : Admitted recent [] recent
  | cons {recent lexemes final : List Token} {lexeme token : Token} (admits : Admits recent lexeme token)
      (rest : Admitted (token :: recent) lexemes final) : Admitted recent (lexeme :: lexemes) final

theorem Lexeme.Reads.isWritten {chars rest : List Char} {token : Token} (h : Lexeme.Reads chars rest token) :
    token.IsWritten := by
  cases h with
  | number => exact .operand _
  | spelled member _ _ =>
    simp only [Token.catalog, List.mem_append, List.mem_cons, List.not_mem_nil, or_false, List.mem_map] at member
    rcases member with (rfl | rfl) | ⟨kind, hk, rfl⟩
    · exact .operand _
    · exact .operand _
    · refine .operator ?_
      rintro rfl
      revert hk
      decide

theorem acceptAll_cons_eq_ok_iff {position : Nat} {lexeme : Token} {recent final : List Token} {rest : List Lexeme} :
    acceptAll recent (⟨position, .ok lexeme⟩ :: rest) = .ok final ↔
      ∃ token, accept recent lexeme = .ok token ∧ acceptAll (token :: recent) rest = .ok final := by
  simp only [acceptAll, bind, Except.bind]
  cases accept recent lexeme <;> simp

/-- What is accepted of a text is what is admitted of the lexemes that it is cut into. -/
theorem acceptAll_ofText_eq_ok_iff {position : Nat} {text : List Char} {recent final : List Token} :
    acceptAll recent (Lexeme.ofText position text) = .ok final ↔
      ∃ lexemes, Lexeme.Cuts text lexemes ∧ Admitted recent lexemes final := by
  fun_induction Lexeme.ofText position text generalizing recent with
  | case1 =>
    simp only [acceptAll, Except.ok.injEq, Lexeme.cuts_nil_iff, exists_eq_left]
    exact ⟨by rintro rfl; exact .nil _, by rintro ⟨⟩; rfl⟩
  | case2 position c rest hb ih => rw [ih]; simp only [Lexeme.cuts_blank_iff hb]
  | case3 position c rest hb fault hread =>
    simp only [acceptAll, Lexeme.cuts_cons_iff hb, hread]
    constructor
    · rintro ⟨⟩
    · rintro ⟨-, ⟨_, _, _, ⟨⟩, _⟩, -⟩
  | case4 position c rest hb token more hread ih =>
    obtain ⟨chars, rest', -, -, reads⟩ := Lexeme.reads_of_read hread
    simp only [acceptAll_cons_eq_ok_iff, accept_eq_ok_iff reads.isWritten, ih, Lexeme.cuts_cons_iff hb, hread]
    constructor
    · rintro ⟨token', ha, lexemes, hc, hadm⟩
      exact ⟨_, ⟨_, _, _, rfl, rfl, hc⟩, .cons ha hadm⟩
    · rintro ⟨-, ⟨_, _, lexemes, ⟨⟩, rfl, hc⟩, ⟨⟩⟩
      next token' ha hadm => exact ⟨token', ha, lexemes, hc, hadm⟩

/-! ## What is derived is accepted -/

/-- The places at which a phrase may begin: a primary also after a sign, arguments only behind the bracket of a call. -/
def Phrase.MayFollow : Phrase → List Token → Prop
  | .primary, recent => (previous recent).opensTerm
  | .term, recent | .expression, recent => (previous recent).opensTerm ∧ previous recent ≠ .negate
  | .arguments _, recent => ∃ (function : Kind) (before : List Token), function.isFunction ∧
      recent = Kind.leftParen.token :: function.token :: before

open Call

theorem enclosing?_call {function : Kind} (hf : function.isFunction) {arguments : Nat} {recent before : List Token}
    (h : openBracket? 0 0 recent = some (arguments, function.token :: before)) :
    enclosing? recent = some (function.operator, arguments) := by
  have : Category.ofOperator function.operator = .function := ofToken_function hf
  simp only [enclosing?, h, Kind.token, this, if_true]

theorem enclosing?_group {arguments : Nat} {recent before : List Token}
    (h : openBracket? 0 0 recent = some (arguments, before)) (opens : (previous before).opensTerm) :
    enclosing? recent = none := by
  simp only [enclosing?, h]
  split
  · next operator _ heq =>
    cases heq
    rw [previous_cons] at opens
    have : Category.ofOperator operator ≠ .function := by
      intro hf
      rw [Category.ofToken, hf] at opens
      cases opens
    rw [if_neg this]
  · rfl

/-- Behind a phrase in the bracket of a call the walk back finds the call, with as many arguments as the phrase has. -/
theorem Derives.enclosing?_call {phrase : Phrase} {lexemes tokens : List Token} (h : Derives phrase lexemes tokens)
    {function : Kind} (hf : function.isFunction) (before : List Token) :
    enclosing? (tokens.reverse ++ Kind.leftParen.token :: function.token :: before) =
      some (function.operator, 1 + phrase.commas) :=
  Formula.enclosing?_call hf ((h.openBracket?_eq 0 _).trans (openBracket?_found ..))

theorem Derives.enclosing?_group {phrase : Phrase} {lexemes tokens : List Token} (h : Derives phrase lexemes tokens)
    {before : List Token} (opens : (previous before).opensTerm) :
    enclosing? (tokens.reverse ++ Kind.leftParen.token :: before) = none :=
  Formula.enclosing?_group ((h.openBracket?_eq 0 _).trans (openBracket?_found ..)) opens

/-- Where a phrase may begin, its lexemes are admitted, and they become its tokens. -/
theorem Derives.admitted {phrase : Phrase} {lexemes tokens : List Token} (h : Derives phrase lexemes tokens)
    {recent more final : List Token} (hf : phrase.MayFollow recent)
    (rest : Admitted (tokens.reverse ++ recent) more final) : Admitted recent (lexemes ++ more) final := by
  induction h generalizing recent more with
  | operand leaf => exact .cons (.operand leaf hf) rest
  | @group lexemes tokens inner ih =>
    -- No function stands before this bracket, so the closing one has no arguments to count.
    rw [reverse_enclosed] at rest
    have fit : argumentsFit (tokens.reverse ++ Kind.leftParen.token :: recent) := by
      rw [argumentsFit, inner.enclosing?_group hf]
      rfl
    rw [List.cons_append, List.cons_append, List.append_assoc]
    exact .cons (.opening (.inl hf)) (ih ⟨rfl, by simp⟩ (.cons (.closing (inner.endsTerm _) fit) rest))
  | @call function lexemes tokens isFunction inner ih =>
    rw [List.cons_append, List.cons_append, reverse_cons_enclosed] at rest
    have fit : argumentsFit (tokens.reverse ++ Kind.leftParen.token :: function.token :: recent) := by
      have := inner.arguments_pos
      rw [argumentsFit, inner.enclosing?_call isFunction]
      simp only [Phrase.commas, Option.all_some, decide_eq_true_eq, Kind.operator]
      omega
    have hc : previous (function.token :: recent) = .function := ofToken_function isFunction
    simp only [List.cons_append, List.append_assoc]
    exact .cons (.function isFunction hf) (.cons (.opening (.inr hc))
      (ih ⟨function, recent, isFunction, rfl⟩ (.cons (.closing (inner.endsTerm _) fit) rest)))
  | bare _ ih => exact ih hf.1 rest
  | signed _ ih =>
    rw [List.reverse_cons, List.append_assoc] at rest
    exact .cons (.sign hf.1 hf.2) (ih rfl rest)
  | single _ ih => exact ih hf rest
  | chain isInfix first _ ihf ihl =>
    rw [reverse_joined] at rest
    rw [List.append_assoc]
    refine ihf hf (.cons (.infixed isInfix (first.endsTerm _)) (ihl ?_ rest))
    rw [Phrase.MayFollow, previous_cons, ofToken_binary isInfix]
    decide
  | one _ ih =>
    obtain ⟨function, before, -, rfl⟩ := hf
    exact ih ⟨rfl, by simp⟩ rest
  | @more count lexemes tokens _ _ first _ ihf ihl =>
    rw [reverse_joined] at rest
    rw [List.append_assoc]
    have inside : isInside (tokens.reverse ++ recent) := by
      obtain ⟨function, before, hfunction, rfl⟩ := hf
      rw [isInside, first.enclosing?_call hfunction]
      rfl
    exact ihf hf (.cons (.comma (first.endsTerm _) inside) (ihl ⟨rfl, by simp⟩ rest))

theorem Admitted.unique {recent lexemes final final' : List Token} (h : Admitted recent lexemes final)
    (h' : Admitted recent lexemes final') : final = final' := by
  induction h with
  | nil => cases h'; rfl
  | cons admits _ ih =>
    cases h' with
    | cons admits' rest' =>
      have := admits.accept_eq.symm.trans admits'.accept_eq
      cases this
      exact ih rest'

theorem Derives.admitted_nil {lexemes tokens : List Token} (h : Derives .expression lexemes tokens) :
    Admitted [] lexemes tokens.reverse := by
  have : Admitted [] (lexemes ++ []) tokens.reverse := h.admitted ⟨rfl, by simp⟩ (by simpa using .nil _)
  simpa using this

/-- All derivations of an expression give its lexemes the same tokens. -/
theorem Derives.unique {lexemes tokens tokens' : List Token} (h : Derives .expression lexemes tokens)
    (h' : Derives .expression lexemes tokens') : tokens = tokens' :=
  List.reverse_injective (h.admitted_nil.unique h'.admitted_nil)

/-! ## What is accepted is derived -/

/-- A bracket that is open: one around an expression, or one of a call to which so many arguments are given. -/
inductive Frame
  | group
  | call (function : Kind) (given : Nat)

/-- The call whose arguments are being written, if the innermost bracket is one, and their number with this one. -/
def Frame.call? : List Frame → Option (Operator × Nat)
  | .call function given :: _ => some (function.operator, given + 1)
  | _ => none

/-- The bracket that opens behind a token: that of a call behind the name of a function, any other one groups. -/
def Frame.opened : Option Token → Frame
  | some (.operator operator) => if Category.ofOperator operator = .function then .call operator.kind 0 else .group
  | _ => .group

/-- A comma ends an argument of the innermost bracket, if that is one of a call. -/
def Frame.next : List Frame → List Frame
  | .call function given :: outer => .call function (given + 1) :: outer
  | frames => frames

/-- The open brackets behind a token, from those before it and the token before it. -/
def Frame.after (previous : Option Token) (token : Token) (frames : List Frame) : List Frame :=
  match token.kind? with
  | some .leftParen => opened previous :: frames
  | some .rightParen => frames.tail
  | some .comma => next frames
  | _ => frames

section After

variable (previous : Option Token) (frames : List Frame)

@[simp] theorem Frame.after_operand (leaf : Operand) : Frame.after previous (.operand leaf) frames = frames := rfl

@[simp] theorem Frame.after_leftParen :
    Frame.after previous Kind.leftParen.token frames = Frame.opened previous :: frames := rfl

@[simp] theorem Frame.after_rightParen : Frame.after previous Kind.rightParen.token frames = frames.tail := rfl

@[simp] theorem Frame.after_comma : Frame.after previous Kind.comma.token frames = Frame.next frames := rfl

/-- What is neither a bracket nor a comma leaves the open brackets as they are. -/
theorem Frame.after_other {kind : Kind} (h : kind.isFunction ∨ kind.isInfix ∨ kind = .negate) :
    Frame.after previous kind.token frames = frames := by
  cases kind <;> first | rfl | simp [Kind.isFunction, Kind.isInfix] at h

@[simp] theorem Frame.next_call (function : Kind) (given : Nat) :
    Frame.next (.call function given :: frames) = .call function (given + 1) :: frames := rfl

end After

/-- What stands before a primary of an expression: maybe the terms before it with their operators, maybe a sign. -/
inductive Lead : Bool → List Token → List Token → Prop
  | start : Lead false [] []
  | infixed {operator : Kind} {lexemes tokens : List Token} (isInfix : operator.isInfix)
      (first : Derives .expression lexemes tokens) :
      Lead false (lexemes ++ [operator.token]) (tokens ++ [operator.token])
  | sign {lexemes tokens : List Token} (lead : Lead false lexemes tokens) :
      Lead true (lexemes ++ [Kind.subtract.token]) (tokens ++ [Kind.negate.token])

/-- The arguments of a call before the one that is being written. -/
inductive Begun : Nat → List Token → List Token → Prop
  | none : Begun 0 [] []
  | some {count : Nat} {lexemes tokens : List Token} (arguments : Derives (.arguments count) lexemes tokens) :
      Begun count (lexemes ++ [Kind.comma.token]) (tokens ++ [Kind.comma.token])

/-- Brackets are open, the innermost first, and an expression begins in the innermost. -/
inductive Inside : List Frame → List Token → List Token → Prop
  | outside : Inside [] [] []
  | group {frames : List Frame} {signed : Bool} {lexemes tokens lexemes' tokens' : List Token}
      (inside : Inside frames lexemes tokens) (lead : Lead signed lexemes' tokens') :
      Inside (.group :: frames) (lexemes ++ lexemes' ++ [Kind.leftParen.token])
        (tokens ++ tokens' ++ [Kind.leftParen.token])
  | call {frames : List Frame} {signed : Bool} {function : Kind} {given : Nat}
      {lexemes tokens lexemes' tokens' lexemes'' tokens'' : List Token} (isFunction : function.isFunction)
      (inside : Inside frames lexemes tokens) (lead : Lead signed lexemes' tokens')
      (begun : Begun given lexemes'' tokens'') :
      Inside (.call function given :: frames)
        (lexemes ++ lexemes' ++ function.token :: Kind.leftParen.token :: lexemes'')
        (tokens ++ tokens' ++ function.token :: Kind.leftParen.token :: tokens'')

/-- The places of a definition: before a primary, behind the name of a function, and behind an expression. -/
inductive Reached : List Frame → List Token → List Token → Prop
  | opens {frames : List Frame} {signed : Bool} {lexemes tokens lexemes' tokens' : List Token}
      (inside : Inside frames lexemes tokens) (lead : Lead signed lexemes' tokens') :
      Reached frames (lexemes ++ lexemes') (tokens ++ tokens')
  | called {frames : List Frame} {signed : Bool} {function : Kind} {lexemes tokens lexemes' tokens' : List Token}
      (isFunction : function.isFunction) (inside : Inside frames lexemes tokens) (lead : Lead signed lexemes' tokens') :
      Reached frames (lexemes ++ lexemes' ++ [function.token]) (tokens ++ tokens' ++ [function.token])
  | ends {frames : List Frame} {lexemes tokens lexemes' tokens' : List Token}
      (inside : Inside frames lexemes tokens) (expression : Derives .expression lexemes' tokens') :
      Reached frames (lexemes ++ lexemes') (tokens ++ tokens')

theorem Lead.expression {signed : Bool} {lexemes tokens lexemes' tokens' : List Token}
    (h : Lead signed lexemes tokens) (primary : Derives .primary lexemes' tokens') :
    Derives .expression (lexemes ++ lexemes') (tokens ++ tokens') := by
  cases h with
  | start => exact .single (.bare primary)
  | infixed isInfix first => simpa using Derives.chain isInfix first (.bare primary)
  | sign lead =>
    cases lead with
    | start => exact .single (.signed primary)
    | infixed isInfix first => simpa using Derives.chain isInfix first (.signed primary)

theorem Inside.previous {frames : List Frame} {lexemes tokens : List Token} (h : Inside frames lexemes tokens) :
    (previous tokens.reverse).opensTerm ∧ previous tokens.reverse ≠ .negate := by
  cases h with
  | outside => exact ⟨rfl, by simp⟩
  | group => simp [Category.opensTerm]
  | call _ _ _ begun => cases begun <;> simp [Category.opensTerm]

theorem Lead.previous {frames : List Frame} {signed : Bool} {lexemes tokens lexemes' tokens' : List Token}
    (h : Lead signed lexemes' tokens') (inside : Inside frames lexemes tokens) :
    (previous (tokens ++ tokens').reverse).opensTerm ∧
      (signed = true ↔ previous (tokens ++ tokens').reverse = .negate) := by
  cases h with
  | start => simpa using inside.previous
  | infixed isInfix _ => simp [ofToken_binary isInfix, Category.opensTerm]
  | sign => simp [Category.opensTerm]

/-- Behind an expression the enclosing call is the innermost bracket, with the expression as its last argument. -/
theorem Inside.enclosing?_eq {frames : List Frame} {lexemes tokens lexemes' tokens' : List Token}
    (h : Inside frames lexemes tokens) (expression : Derives .expression lexemes' tokens') :
    enclosing? (tokens ++ tokens').reverse = Frame.call? frames := by
  cases h with
  | outside =>
    have hopen := expression.openBracket?_eq 0 []
    rw [List.append_nil] at hopen
    rw [List.nil_append, enclosing?, hopen]
    rfl
  | @group _ _ _ before _ lead' inside lead =>
    have hsplit : (before ++ lead' ++ [Kind.leftParen.token] ++ tokens').reverse =
        tokens'.reverse ++ Kind.leftParen.token :: (before ++ lead').reverse := by simp
    rw [hsplit]
    exact expression.enclosing?_group (lead.previous inside).1
  | @call _ _ function given _ before _ lead' _ begun' isFunction inside lead begun =>
    -- The arguments before a comma and the expression behind it are arguments again.
    cases begun with
    | none =>
      have hsplit : (before ++ lead' ++ function.token :: Kind.leftParen.token :: [] ++ tokens').reverse =
          tokens'.reverse ++ Kind.leftParen.token :: function.token :: (before ++ lead').reverse := by simp
      rw [hsplit]
      exact expression.enclosing?_call isFunction _
    | @some _ _ first arguments =>
      have hsplit : (before ++ lead' ++ function.token :: Kind.leftParen.token :: (first ++ [Kind.comma.token]) ++
          tokens').reverse = (first ++ Kind.comma.token :: tokens').reverse ++
            Kind.leftParen.token :: function.token :: (before ++ lead').reverse := by simp
      rw [hsplit, (Derives.more arguments expression).enclosing?_call isFunction, Phrase.commas, Frame.call?]
      simp [Nat.add_comm]

section Places

variable {frames : List Frame} {lexemes tokens : List Token}

theorem Reached.of_opensTerm (h : Reached frames lexemes tokens) (opens : (Formula.previous tokens.reverse).opensTerm) :
    ∃ signed before before' lead lead', Inside frames before before' ∧ Lead signed lead lead' ∧
      lexemes = before ++ lead ∧ tokens = before' ++ lead' := by
  cases h with
  | opens inside lead => exact ⟨_, _, _, _, _, inside, lead, rfl, rfl⟩
  | called isFunction => simp [ofToken_function isFunction, Category.opensTerm] at opens
  | ends inside expression =>
    rw [List.reverse_append, Category.opensTerm_eq_false_of_endsTerm (expression.endsTerm _)] at opens
    cases opens

theorem Reached.of_endsTerm (h : Reached frames lexemes tokens) (ends : (Formula.previous tokens.reverse).endsTerm) :
    ∃ before before' last last', Inside frames before before' ∧ Derives .expression last last' ∧
      lexemes = before ++ last ∧ tokens = before' ++ last' := by
  cases h with
  | opens inside lead =>
    have := (lead.previous inside).1
    rw [Category.opensTerm_eq_false_of_endsTerm ends] at this
    cases this
  | called isFunction => simp [ofToken_function isFunction, Category.endsTerm] at ends
  | ends inside expression => exact ⟨_, _, _, _, inside, expression, rfl, rfl⟩

theorem Reached.of_function (h : Reached frames lexemes tokens) (called : Formula.previous tokens.reverse = .function) :
    ∃ signed, ∃ function : Kind, ∃ before before' lead lead', function.isFunction ∧ Inside frames before before' ∧
      Lead signed lead lead' ∧ lexemes = before ++ lead ++ [function.token] ∧
      tokens = before' ++ lead' ++ [function.token] := by
  cases h with
  | opens inside lead =>
    have := (lead.previous inside).1
    rw [called] at this
    cases this
  | called isFunction inside lead => exact ⟨_, _, _, _, _, _, isFunction, inside, lead, rfl, rfl⟩
  | @ends _ tokens _ _ inside expression =>
    have := expression.endsTerm tokens.reverse
    rw [← List.reverse_append, called] at this
    cases this

/-- A closing bracket around a last expression ends an expression of the bracket outside of it. -/
theorem Inside.close {frame : Frame} {last last' : List Token} (h : Inside (frame :: frames) lexemes tokens)
    (expression : Derives .expression last last') (fit : argumentsFit (tokens ++ last').reverse) :
    Reached frames (lexemes ++ last ++ [Kind.rightParen.token]) (tokens ++ last' ++ [Kind.rightParen.token]) := by
  rw [argumentsFit, h.enclosing?_eq expression] at fit
  cases h with
  | group inside lead =>
    simpa using Reached.ends inside (lead.expression (.group expression))
  | call isFunction inside lead begun =>
    simp only [Frame.call?, Option.all_some, decide_eq_true_eq, Kind.operator] at fit
    cases begun with
    | none =>
      have all := Derives.one expression
      rw [← Nat.zero_add 1, ← fit] at all
      simpa using Reached.ends inside (lead.expression (.call isFunction all))
    | some arguments =>
      have all := Derives.more arguments expression
      rw [← fit] at all
      simpa using Reached.ends inside (lead.expression (.call isFunction all))

theorem Inside.next {last last' : List Token} (h : Inside frames lexemes tokens)
    (expression : Derives .expression last last') (inside : isInside (tokens ++ last').reverse) :
    Inside (Frame.next frames) (lexemes ++ last ++ [Kind.comma.token]) (tokens ++ last' ++ [Kind.comma.token]) := by
  rw [isInside, h.enclosing?_eq expression] at inside
  cases h with
  | outside => cases inside
  | group => cases inside
  | @call outer _ function given _ _ _ _ begunLexemes begunTokens isFunction before lead begun =>
    have arguments : Begun (given + 1) (begunLexemes ++ last ++ [Kind.comma.token])
        (begunTokens ++ last' ++ [Kind.comma.token]) := by
      cases begun with
      | none => exact .some (.one expression)
      | some arguments => simpa using Begun.some (.more arguments expression)
    simpa using Inside.call isFunction before lead arguments

theorem Frame.length_next (frames : List Frame) : (Frame.next frames).length = frames.length := by
  unfold Frame.next
  split <;> rfl

theorem Frame.opened_of_opensTerm {recent : List Token} (h : (Formula.previous recent).opensTerm) :
    Frame.opened recent.head? = .group := by
  unfold Frame.opened
  split
  · next operator heq =>
    rw [Formula.previous, heq] at h
    refine if_neg fun hf => ?_
    rw [Category.ofPrevious, Category.ofToken, hf] at h
    cases h
  · rfl

theorem Frame.opened_function {function : Kind} (h : function.isFunction) :
    Frame.opened (some function.token) = .call function 0 :=
  if_pos (ofToken_function h)

/-- One more token leads from place to place, as long as a closing bracket has a partner. -/
theorem Reached.step {lexeme token : Token} (h : Reached frames lexemes tokens)
    (ha : Admits tokens.reverse lexeme token) (hp : lexeme = Kind.rightParen.token → frames ≠ []) :
    Reached (Frame.after tokens.reverse.head? token frames) (lexemes ++ [lexeme]) (tokens ++ [token]) ∧
      Bracket.nesting frames.length ([lexeme].filterMap Bracket.ofToken?) =
        some (Frame.after tokens.reverse.head? token frames).length := by
  cases ha with
  | operand leaf opens =>
    obtain ⟨_, _, _, _, _, inside, lead, rfl, rfl⟩ := h.of_opensTerm opens
    refine ⟨?_, rfl⟩
    rw [Frame.after_operand]
    simpa using Reached.ends inside (lead.expression (.operand leaf))
  | @function kind isFunction opens =>
    obtain ⟨_, _, _, _, _, inside, lead, rfl, rfl⟩ := h.of_opensTerm opens
    rw [Frame.after_other _ _ (.inl isFunction)]
    refine ⟨.called isFunction inside lead, ?_⟩
    cases kind <;> first | rfl | cases isFunction
  | opening place =>
    -- A bracket behind the name of a function is that of a call, any other one encloses an expression.
    refine ⟨?_, rfl⟩
    rw [Frame.after_leftParen]
    rcases place with opens | called
    · rw [Frame.opened_of_opensTerm opens]
      obtain ⟨_, _, _, _, _, inside, lead, rfl, rfl⟩ := h.of_opensTerm opens
      simpa using Reached.opens (.group inside lead) .start
    · obtain ⟨_, function, _, _, _, _, isFunction, inside, lead, rfl, rfl⟩ := h.of_function called
      rw [List.reverse_append, List.reverse_singleton, List.singleton_append, List.head?_cons,
        Frame.opened_function isFunction]
      simpa using Reached.opens (.call isFunction inside lead .none) .start
  | closing ends fit =>
    obtain ⟨_, _, _, _, inside, expression, rfl, rfl⟩ := h.of_endsTerm ends
    cases frames with
    | nil => exact absurd rfl (hp rfl)
    | cons frame frames => exact ⟨inside.close expression fit, rfl⟩
  | comma ends isInside =>
    obtain ⟨_, _, _, _, inside, expression, rfl, rfl⟩ := h.of_endsTerm ends
    refine ⟨?_, congrArg some (Frame.length_next frames).symm⟩
    rw [Frame.after_comma]
    simpa using Reached.opens (inside.next expression isInside) .start
  | @infixed kind isInfix ends =>
    obtain ⟨_, _, _, _, inside, expression, rfl, rfl⟩ := h.of_endsTerm ends
    rw [Frame.after_other _ _ (.inr (.inl isInfix))]
    refine ⟨by simpa using Reached.opens inside (.infixed isInfix expression), ?_⟩
    cases kind <;> first | rfl | cases isInfix
  | sign opens unsigned =>
    obtain ⟨signed, _, _, _, _, inside, lead, rfl, rfl⟩ := h.of_opensTerm opens
    cases signed with
    | true => exact absurd ((lead.previous inside).2.1 rfl) unsigned
    | false =>
      rw [Frame.after_other _ _ (.inr (.inr rfl))]
      refine ⟨?_, rfl⟩
      simpa using Reached.opens inside lead.sign

end Places

/-- What is admitted leads from place to place, and matching brackets lead out of all of them. -/
theorem Admitted.reached {recent lexemes final : List Token} (h : Admitted recent lexemes final)
    {frames : List Frame} {before : List Token} (hr : Reached frames before recent.reverse)
    (hn : Bracket.nesting frames.length (lexemes.filterMap Bracket.ofToken?) = some 0) :
    Reached [] (before ++ lexemes) final.reverse := by
  induction h generalizing frames before with
  | nil recent =>
    obtain rfl : frames = [] := by simpa [Bracket.nesting] using hn
    simpa using hr
  | @cons recent lexemes final lexeme token ha _ ih =>
    -- The brackets that are left close all that are open, so a closing one has a partner.
    have hp : lexeme = Kind.rightParen.token → frames ≠ [] := by
      rintro rfl rfl
      simp [Bracket.nesting, Bracket.ofToken?, Kind.token, Token.kind?, Kind.operator] at hn
    obtain ⟨hr', hl⟩ := hr.step (by simpa using ha) hp
    rw [← List.singleton_append, List.filterMap_append, Bracket.nesting_append_of_eq hl] at hn
    have := ih (by simpa using hr') hn
    simpa using this

/-! ## The grammar of what is accepted -/

theorem Derives.ne_nil {phrase : Phrase} {lexemes tokens : List Token} (h : Derives phrase lexemes tokens) :
    lexemes ≠ [] ∧ tokens ≠ [] := by
  induction h <;> simp_all

theorem Derives.nesting {phrase : Phrase} {lexemes tokens : List Token} (h : Derives phrase lexemes tokens)
    (depth : Nat) : Bracket.nesting depth (lexemes.filterMap Bracket.ofToken?) = some depth := by
  have other : ∀ {kind : Kind}, kind.isFunction ∨ kind.isInfix ∨ kind = .comma →
      ∀ lexemes, (kind.token :: lexemes).filterMap Bracket.ofToken? = lexemes.filterMap Bracket.ofToken? := by
    intro kind hk lexemes
    refine List.filterMap_cons_none ?_
    cases kind <;> first | rfl | simp_all [Kind.isFunction, Kind.isInfix]
  have opening : ∀ lexemes, (Kind.leftParen.token :: lexemes).filterMap Bracket.ofToken? =
      .opening :: lexemes.filterMap Bracket.ofToken? := fun _ => rfl
  induction h generalizing depth with
  | operand => rfl
  | group _ ih =>
    rw [List.cons_append, opening, List.filterMap_append, Bracket.nesting, Bracket.nesting_append_of_eq (ih _)]
    rfl
  | call isFunction _ ih =>
    rw [List.cons_append, List.cons_append, other (.inl isFunction), opening, List.filterMap_append, Bracket.nesting,
      Bracket.nesting_append_of_eq (ih _)]
    rfl
  | bare _ ih | single _ ih | one _ ih => exact ih depth
  | signed _ ih => rw [other (.inr (.inl rfl))]; exact ih depth
  | chain isInfix _ _ ihf ihl =>
    rw [List.filterMap_append, Bracket.nesting_append_of_eq (ihf _), other (.inr (.inl isInfix))]
    exact ihl depth
  | more _ _ ihf ihl =>
    rw [List.filterMap_append, Bracket.nesting_append_of_eq (ihf _), other (.inr (.inr rfl))]
    exact ihl depth

/-- What is admitted from the beginning to the end of a term, with matching brackets, is an expression. -/
theorem derives_of_admitted {lexemes final : List Token} (h : Admitted [] lexemes final)
    (hn : Bracket.nesting 0 (lexemes.filterMap Bracket.ofToken?) = some 0) (ends : (previous final).endsTerm) :
    Derives .expression lexemes final.reverse := by
  have hr := h.reached (.opens .outside .start) hn
  obtain ⟨_, _, _, _, inside, expression, hl, ht⟩ := hr.of_endsTerm (by simpa using ends)
  cases inside
  simp only [List.nil_append] at hl ht
  rwa [hl, ht]

theorem tokensOf_eq_ok_iff_acceptAll {text : List Char} {tokens : List Token} :
    tokensOf text = .ok tokens ↔ text ≠ [] ∧ Brackets.unmatched? text = none ∧
      acceptAll [] (Lexeme.ofText 0 text) = .ok tokens.reverse ∧ (previous tokens.reverse).endsTerm := by
  unfold tokensOf
  split
  · next he => simp [List.isEmpty_iff.1 he]
  · next he =>
    have hne : text ≠ [] := by simpa using he
    cases hu : Brackets.unmatched? text with
    | some position => simp
    | none =>
      simp only [ne_eq, hne, not_false_eq_true, true_and]
      cases ha : acceptAll [] (Lexeme.ofText 0 text) with
      | error rejection => simp
      | ok final =>
        simp only [Except.ok.injEq]
        cases final with
        | nil =>
          simp only [reduceCtorEq, false_iff, not_and]
          rintro h
          simp [← h, Category.endsTerm]
        | cons last before =>
          have hrev : last :: before = tokens.reverse ↔ (last :: before).reverse = tokens := by
            rw [List.reverse_eq_iff]
          simp only [hrev]
          by_cases hl : (Category.ofToken last).endsTerm
          · simp only [hl, if_true, Except.ok.injEq]
            refine ⟨fun h => ⟨h, ?_⟩, fun h => h.1⟩
            rw [← hrev.2 h]
            exact hl
          · simp only [hl, Bool.false_eq_true, if_false, reduceCtorEq, false_iff, not_and]
            intro h
            rw [← hrev.2 h]
            exact hl

/-- A text is accepted iff its lexemes are derived from the grammar, and its tokens are those of the derivation. -/
theorem tokensOf_eq_ok_iff_derives {text : List Char} {tokens : List Token} :
    tokensOf text = .ok tokens ↔ ∃ lexemes, Lexeme.Cuts text lexemes ∧ Derives .expression lexemes tokens := by
  rw [tokensOf_eq_ok_iff_acceptAll, acceptAll_ofText_eq_ok_iff]
  constructor
  · rintro ⟨-, hu, ⟨lexemes, hc, ha⟩, ends⟩
    refine ⟨lexemes, hc, ?_⟩
    simpa using derives_of_admitted ha (hc.unmatched?_eq_none_iff.1 hu) ends
  · rintro ⟨lexemes, hc, hd⟩
    refine ⟨?_, hc.unmatched?_eq_none_iff.2 (hd.nesting 0), ⟨lexemes, hc, hd.admitted_nil⟩, ?_⟩
    · rintro rfl
      exact hd.ne_nil.1 (Lexeme.cuts_nil_iff.1 hc)
    · simpa using hd.endsTerm []

/-- The tokenizer accepts the definitions of the grammar and no others. Their tokens are the lexemes, with the signs of
the derivation turned into unary minuses. -/
theorem tokenize_eq_ok_iff (definition : String) (tokens : List Token) :
    tokenize definition = .ok tokens ↔
      ∃ lexemes, Lexeme.Cuts definition.toList lexemes ∧ Derives .expression lexemes tokens :=
  tokensOf_eq_ok_iff_derives

end Formula
