import Formula.Proofs.Precedence
/-!
# The conversion to postfix code

The conversion turns the tokens of a tree into its listing (`Parses.convert_eq`). A part of a definition is converted
in the same way wherever it stands, as long as the operator that waits on top of the stack binds less than those of the
part (`Converts`): some of its listing is put out, and the rest are operators that wait.
-/

namespace Formula

namespace Code

/-! ## One token -/

theorem convert_operand (stack : List Operator) (leaf : Operand) (rest : List Token) :
    convert stack (.operand leaf :: rest) = (convert stack rest).map (.operand leaf :: ·) := rfl

theorem convert_leftParen (stack : List Operator) (rest : List Token) :
    convert stack (Kind.leftParen.token :: rest) = convert (Kind.leftParen.operator :: stack) rest := rfl

theorem map_map_append (out out' : Code) (result : Except ConversionError Code) :
    (result.map (out' ++ ·)).map (out ++ ·) = result.map (out ++ out' ++ ·) := by
  cases result <;> simp [Except.map]

theorem map_operator (waiting : List Kind) :
    (waiting.map Kind.operator).map Token.operator = waiting.map Kind.token := by
  simp [Kind.token]

theorem span_append {α : Type} {p : α → Bool} {above below : List α} (ha : ∀ a ∈ above, p a)
    (hb : ∀ b ∈ below.head?, p b = false) : (above ++ below).span p = (above, below) := by
  rw [List.span_eq_takeWhile_dropWhile, List.takeWhile_append_of_pos ha, List.dropWhile_append_of_pos ha]
  cases below with
  | nil => simp
  | cons b below => simp [hb b rfl]

/-- An operator puts out those above it on the stack that bind at least as tight. -/
theorem convert_operator {kind : Kind} (hg : kind.isGrouping = false) {waiting : List Kind}
    (hw : ∀ above ∈ waiting, kind.precedence ≤ above.precedence) {stack : List Operator}
    (hs : ∀ top ∈ stack.head?, top.precedence < kind.precedence) (rest : List Token) :
    convert (waiting.map Kind.operator ++ stack) (kind.token :: rest) =
      (convert (kind.operator :: stack) rest).map (waiting.map Kind.token ++ ·) := by
  let popped := (waiting.map Kind.operator ++ stack).span fun above => kind.operator.precedence ≤ above.precedence
  have hspan : popped = (waiting.map Kind.operator, stack) := by
    refine span_append ?_ fun top ht => ?_
    · intro above ha
      obtain ⟨kind', hm, rfl⟩ := List.mem_map.1 ha
      exact decide_eq_true (hw kind' hm)
    · have := hs top ht
      simp only [decide_eq_false_iff_not, Int.not_le]
      exact this
  have hc : convert (waiting.map Kind.operator ++ stack) (kind.token :: rest) =
      (convert (kind.operator :: popped.2) rest).map (popped.1.map .operator ++ ·) := by
    cases kind <;> first | rfl | cases hg
  rw [hc, hspan]
  simp only [map_operator]

/-- Operators of positive precedence are no brackets, so they end above the bracket below them. -/
theorem splitAtBracket?_eq {waiting : List Kind} (hw : ∀ above ∈ waiting, 0 < above.precedence)
    (stack : List Operator) :
    splitAtBracket? (waiting.map Kind.operator ++ Kind.leftParen.operator :: stack) =
      some (waiting.map Kind.operator, Kind.leftParen.operator, stack) := by
  unfold splitAtBracket?
  rw [span_append]
  · intro above ha
    obtain ⟨kind, hm, rfl⟩ := List.mem_map.1 ha
    have : kind ≠ .leftParen := by
      rintro rfl
      exact absurd (hw _ hm) (by decide)
    exact decide_eq_true this
  · intro bracket hb
    cases hb
    rfl

theorem convert_rightParen {waiting : List Kind} (hw : ∀ above ∈ waiting, 0 < above.precedence)
    (stack : List Operator) (rest : List Token) :
    convert (waiting.map Kind.operator ++ Kind.leftParen.operator :: stack) (Kind.rightParen.token :: rest) =
      (convert stack rest).map (waiting.map Kind.token ++ ·) := by
  simp only [Kind.token, convert, Kind.operator.eq_def .rightParen]
  rw [splitAtBracket?_eq hw]
  simp only [map_operator]

theorem convert_comma {waiting : List Kind} (hw : ∀ above ∈ waiting, 0 < above.precedence)
    (stack : List Operator) (rest : List Token) :
    convert (waiting.map Kind.operator ++ Kind.leftParen.operator :: stack) (Kind.comma.token :: rest) =
      (convert (Kind.leftParen.operator :: stack) rest).map (waiting.map Kind.token ++ ·) := by
  simp only [Kind.token, convert, Kind.operator.eq_def .comma]
  rw [splitAtBracket?_eq hw]
  simp only [map_operator]

end Code

open Code

/-! ## A part of a definition -/

/-- Above operators that bind less than `rank`, the conversion of some tokens puts out a first part of the code. What
is left of the code waits on the stack, in operators that bind at least as tight as `rank`. -/
def Converts (rank : Int) (tokens : List Token) (code : Code) : Prop :=
  ∃ (out : Code) (waiting : List Kind), code = out ++ waiting.map Kind.token ∧
    (∀ kind ∈ waiting, rank ≤ kind.precedence) ∧
    ∀ (stack : List Operator) (rest : List Token), (∀ top ∈ stack.head?, top.precedence < rank) →
      convert stack (tokens ++ rest) = (convert (waiting.map Kind.operator ++ stack) rest).map (out ++ ·)

namespace Converts

variable {rank : Int} {tokens tokens' : List Token} {code code' : Code}

theorem weaken {rank' : Int} (h : Converts rank tokens code) (hr : rank' ≤ rank) : Converts rank' tokens code := by
  obtain ⟨out, waiting, hcode, hw, hc⟩ := h
  refine ⟨out, waiting, hcode, fun kind hm => Int.le_trans hr (hw kind hm), fun stack rest hs => ?_⟩
  exact hc stack rest fun top ht => Int.lt_of_lt_of_le (hs top ht) hr

theorem operand (leaf : Operand) : Converts rank [.operand leaf] [.operand leaf] :=
  ⟨[.operand leaf], [], rfl, by simp, fun stack rest _ => convert_operand stack leaf rest⟩

theorem of_enclosed (h : ∀ stack rest, convert stack (tokens ++ rest) = (convert stack rest).map (code ++ ·)) :
    Converts rank tokens code :=
  ⟨code, [], by simp, by simp, fun stack rest _ => h stack rest⟩

/-- A bracket binds less than any part, so a part is converted behind it, and what waits is no bracket. -/
theorem inside (h : Converts rank tokens code) (hr : 0 < rank) :
    ∃ (out : Code) (waiting : List Kind), code = out ++ waiting.map Kind.token ∧
      (∀ above ∈ waiting, 0 < above.precedence) ∧ ∀ (stack : List Operator) (rest : List Token),
        convert (Kind.leftParen.operator :: stack) (tokens ++ rest) =
          (convert (waiting.map Kind.operator ++ Kind.leftParen.operator :: stack) rest).map (out ++ ·) := by
  obtain ⟨out, waiting, hcode, hw, hc⟩ := h
  refine ⟨out, waiting, hcode, fun above hm => Int.lt_of_lt_of_le hr (hw above hm), fun stack rest => hc _ _ ?_⟩
  rintro _ ⟨⟩
  exact hr

theorem closed (h : Converts rank tokens code) (hr : 0 < rank) (stack : List Operator) (rest : List Token) :
    convert (Kind.leftParen.operator :: stack) (tokens ++ Kind.rightParen.token :: rest) =
      (convert stack rest).map (code ++ ·) := by
  obtain ⟨out, waiting, rfl, hw, hc⟩ := h.inside hr
  rw [hc, convert_rightParen hw, map_map_append]

theorem separated (h : Converts rank tokens code) (hr : 0 < rank) (stack : List Operator) (rest : List Token) :
    convert (Kind.leftParen.operator :: stack) (tokens ++ Kind.comma.token :: rest) =
      (convert (Kind.leftParen.operator :: stack) rest).map (code ++ ·) := by
  obtain ⟨out, waiting, rfl, hw, hc⟩ := h.inside hr
  rw [hc, convert_comma hw, map_map_append]

theorem group {rank' : Int} (h : Converts rank tokens code) (hr : 0 < rank) :
    Converts rank' (Kind.leftParen.token :: tokens ++ [Kind.rightParen.token]) code := by
  refine of_enclosed fun stack rest => ?_
  rw [List.append_assoc, List.cons_append, convert_leftParen]
  exact h.closed hr stack rest

theorem group₂ {rank' : Int} (h : Converts rank tokens code) (h' : Converts rank tokens' code') (hr : 0 < rank) :
    Converts rank' (Kind.leftParen.token :: (tokens ++ Kind.comma.token :: tokens') ++ [Kind.rightParen.token])
      (code ++ code') := by
  refine of_enclosed fun stack rest => ?_
  rw [List.append_assoc, List.cons_append, convert_leftParen, List.append_assoc, List.cons_append, h.separated hr]
  rw [List.singleton_append, h'.closed hr, map_map_append]

/-- An operator before what it applies to waits below it. -/
theorem applied {kind : Kind} (hg : kind.isGrouping = false) (h : Converts rank tokens code)
    (hr : kind.precedence < rank) : Converts kind.precedence (kind.token :: tokens) (code ++ [kind.token]) := by
  obtain ⟨out, waiting, rfl, hw, hc⟩ := h
  refine ⟨out, waiting ++ [kind], by simp, fun above hm => ?_, fun stack rest hs => ?_⟩
  · rcases List.mem_append.1 hm with hm | hm
    · exact Int.le_of_lt (Int.lt_of_lt_of_le hr (hw above hm))
    · obtain rfl := List.mem_singleton.1 hm
      exact Int.le_refl _
  · have hstep : convert stack (kind.token :: (tokens ++ rest)) =
        convert (kind.operator :: stack) (tokens ++ rest) := by
      have := convert_operator hg (List.forall_mem_nil _) hs (tokens ++ rest)
      cases hrest : convert (kind.operator :: stack) (tokens ++ rest) <;> simpa [hrest, Except.map] using this
    have htop : ∀ top ∈ (kind.operator :: stack).head?, top.precedence < rank := by rintro _ ⟨⟩; exact hr
    rw [List.cons_append, hstep, hc _ _ htop]
    simp

/-- An operator between its operands puts out those of the left operand, and waits below those of the right one. -/
theorem chain {kind : Kind} (hg : kind.isGrouping = false) (h : Converts kind.precedence tokens code)
    (h' : Converts rank tokens' code') (hr : kind.precedence < rank) :
    Converts kind.precedence (tokens ++ kind.token :: tokens') (code ++ code' ++ [kind.token]) := by
  obtain ⟨out, waiting, rfl, hw, hc⟩ := h
  obtain ⟨out', waiting', rfl, hw', hc'⟩ := h'
  refine ⟨out ++ waiting.map Kind.token ++ out', waiting' ++ [kind], by simp, fun above hm => ?_,
    fun stack rest hs => ?_⟩
  · rcases List.mem_append.1 hm with hm | hm
    · exact Int.le_of_lt (Int.lt_of_lt_of_le hr (hw' above hm))
    · obtain rfl := List.mem_singleton.1 hm
      exact Int.le_refl _
  · have htop : ∀ top ∈ (kind.operator :: stack).head?, top.precedence < rank := by rintro _ ⟨⟩; exact hr
    rw [List.append_assoc, List.cons_append, hc _ _ hs, convert_operator hg hw hs, hc' _ _ htop, map_map_append,
      map_map_append]
    simp

theorem convert_eq (h : Converts rank tokens code) : convert [] tokens = .ok code := by
  obtain ⟨out, waiting, rfl, -, hc⟩ := h
  have := hc [] [] (by simp)
  rw [List.append_nil, List.append_nil] at this
  rw [this, convert, map_operator]
  rfl

end Converts

/-! ## The code of a tree -/

/-- A part is converted to the listing of its tree. -/
theorem Parses.converts {tier : Tier} {lexemes tokens : List Token} {tree : Tree}
    (h : Parses tier lexemes tokens tree) : Converts tier.rank tokens tree.postorder := by
  induction h with
  | operand leaf => exact .operand leaf
  | group _ ih => exact ih.group (Tier.rank_pos _)
  | call isFunction _ _ ih =>
    -- Whatever waits below brackets, they are put out as a whole, so the function waits below them.
    rw [← Kind.precedence_of_isFunction isFunction]
    exact (ih.group (Tier.rank_pos _)).applied (Kind.isGrouping_of_isFunction isFunction) (Int.lt_succ _)
  | call₂ isFunction _ _ _ ihf ihs =>
    rw [← Kind.precedence_of_isFunction isFunction]
    exact (ihf.group₂ ihs (Tier.rank_pos _)).applied (Kind.isGrouping_of_isFunction isFunction) (Int.lt_succ _)
  | sign _ ih =>
    have : Kind.negate.precedence < Tier.primary.rank := by decide
    exact ih.applied rfl this
  | tighter h _ ih =>
    have := Tier.rank_tighter h
    exact ih.weaken (by omega)
  | chain htier h _ _ ihl ihr =>
    have hg := Kind.isGrouping_of_isInfix (Kind.isInfix_of_tier htier)
    have hp := Kind.rank_tier htier
    have := Tier.rank_tighter h
    rw [← hp] at ihl ⊢
    exact ihl.chain hg ihr (by omega)

theorem Parses.convert_eq {tier : Tier} {lexemes tokens : List Token} {tree : Tree}
    (h : Parses tier lexemes tokens tree) : convert [] tokens = .ok tree.postorder :=
  h.converts.convert_eq

end Formula
