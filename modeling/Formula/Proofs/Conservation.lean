import Formula.Proofs.Conversion
import Formula.Proofs.Nesting
/-!
# What the conversion keeps

The conversion is total on the rows of tokens in which every closing bracket and every comma finds an open bracket, and
loses none of their tokens (`ofTokens_conserves`). Its output is a rearrangement of the tokens that stay: all but
closing brackets, commas and the opening brackets that are closed later. Operands keep their order, and no operator
comes before an operand that stood before it.

Tokens that are alike are told apart by their places. A token and what waits on the stack make one row, the waiting
operators first; each step takes some tokens out of that row, and leaves the others as they were (`Moves.perm`).
-/

namespace Formula

open Formula.Bracket

/-- Operands, and the operators as their kinds have them. -/
inductive Token.IsKnown : Token → Prop
  | operand (leaf : Operand) : IsKnown (.operand leaf)
  | operator (kind : Kind) : IsKnown kind.token

def Token.isOperand : Token → Bool
  | .operand _ => true
  | .operator _ => false

/-- A closing bracket lacks a partner iff there is a first one that does. -/
theorem Bracket.nesting_eq_none_iff {depth : Nat} {brackets : List Bracket} :
    nesting depth brackets = none ↔
      ∃ inner outer, brackets = inner ++ .closing :: outer ∧ nesting depth inner = some 0 := by
  constructor
  · intro h
    induction brackets generalizing depth with
    | nil => cases h
    | cons bracket rest ih =>
      cases bracket with
      | opening =>
        obtain ⟨inner, outer, rfl, hi⟩ := ih h
        exact ⟨.opening :: inner, outer, rfl, hi⟩
      | closing =>
        by_cases hd : depth = 0
        · exact ⟨[], rest, rfl, congrArg some hd⟩
        · rw [nesting, if_neg hd] at h
          obtain ⟨inner, outer, rfl, hi⟩ := ih h
          exact ⟨.closing :: inner, outer, rfl, by rw [nesting, if_neg hd, hi]⟩
  · rintro ⟨inner, outer, rfl, hi⟩
    rw [nesting_append_of_eq hi]
    rfl

theorem Bracket.ofToken?_eq_closing_iff {token : Token} :
    ofToken? token = some .closing ↔ token.kind? = some .rightParen := by
  unfold ofToken?
  split <;> simp_all

namespace Code

/-! ## Closing brackets and commas without an open bracket -/

/-- The number of brackets open behind a token, if `depth` are open before it. A closing bracket without a partner
changes nothing. -/
def openedBy (depth : Nat) (token : Token) : Nat :=
  match token.kind? with
  | some .leftParen => depth + 1
  | some .rightParen => depth - 1
  | _ => depth

/-- At this place there is a closing bracket or a comma to which no bracket is open, if `depth` are open at the
beginning. -/
def Stray (depth : Nat) (tokens : List Token) (place : Nat) : Prop :=
  ∃ token, tokens[place]? = some token ∧ (token.kind? = some .rightParen ∨ token.kind? = some .comma) ∧
    (tokens.take place).foldl openedBy depth = 0

def FirstStray (depth : Nat) (tokens : List Token) (place : Nat) : Prop :=
  Stray depth tokens place ∧ ∀ before < place, ¬ Stray depth tokens before

theorem stray_zero_iff {depth : Nat} {token : Token} {rest : List Token} :
    Stray depth (token :: rest) 0 ↔ (token.kind? = some .rightParen ∨ token.kind? = some .comma) ∧ depth = 0 := by
  simp [Stray]

theorem stray_succ_iff {depth place : Nat} {token : Token} {rest : List Token} :
    Stray depth (token :: rest) (place + 1) ↔ Stray (openedBy depth token) rest place := by
  simp [Stray]

/-! ## Tokens that stay -/

/-- An opening bracket before these tokens is closed by one of them: the brackets between the two match. -/
def ClosedIn (rest : List Token) : Prop :=
  ∃ inner closing outer, rest = inner ++ closing :: outer ∧ closing.kind? = some .rightParen ∧
    nesting 0 (inner.filterMap ofToken?) = some 0

/-- The token at a place is put out by the conversion. -/
def Stays (tokens : List Token) (place : Nat) : Prop :=
  ∃ token, tokens[place]? = some token ∧ token.kind? ≠ some .rightParen ∧ token.kind? ≠ some .comma ∧
    (token.kind? = some .leftParen → ¬ ClosedIn (tokens.drop (place + 1)))

/-- A token stays before some others. -/
def staysBefore (token : Token) (rest : List Token) : Bool :=
  match token.kind? with
  | some .rightParen | some .comma => false
  | some .leftParen => (nesting 0 (rest.filterMap ofToken?)).isSome
  | _ => true

/-- The tokens of a row that stay, with their places. -/
def kept : List (Token × Nat) → List (Token × Nat)
  | [] => []
  | item :: rest => if staysBefore item.1 (rest.map Prod.fst) then item :: kept rest else kept rest

theorem closedIn_iff {rest : List Token} : ClosedIn rest ↔ nesting 0 (rest.filterMap ofToken?) = none := by
  rw [nesting_eq_none_iff]
  constructor
  · rintro ⟨inner, closing, outer, rfl, hc, hi⟩
    refine ⟨_, outer.filterMap ofToken?, ?_, hi⟩
    rw [List.filterMap_append, List.filterMap_cons_some (ofToken?_eq_closing_iff.2 hc)]
  · rintro ⟨inner, outer, heq, hi⟩
    obtain ⟨front, back, rfl, rfl, hback⟩ := List.filterMap_eq_append_iff.1 heq
    obtain ⟨between, closing, outer, rfl, hbetween, hc, -⟩ := List.filterMap_eq_cons_iff.1 hback
    refine ⟨front ++ between, closing, outer, by simp, ofToken?_eq_closing_iff.1 hc, ?_⟩
    rw [List.filterMap_append, List.filterMap_eq_nil_iff.2 hbetween, List.append_nil, hi]

theorem staysBefore_iff {token : Token} {rest : List Token} :
    staysBefore token rest ↔ token.kind? ≠ some .rightParen ∧ token.kind? ≠ some .comma ∧
      (token.kind? = some .leftParen → ¬ ClosedIn rest) := by
  rw [closedIn_iff, staysBefore]
  split <;> simp_all [Option.isSome_iff_ne_none]

theorem mem_kept_zipIdx {tokens : List Token} {start : Nat} {item : Token × Nat} :
    item ∈ kept (tokens.zipIdx start) ↔
      ∃ place, item.2 = start + place ∧ tokens[place]? = some item.1 ∧ Stays tokens place := by
  induction tokens generalizing start with
  | nil => simp [kept]
  | cons token rest ih =>
    have first : Stays (token :: rest) 0 ↔ staysBefore token rest := by
      simp [Stays, staysBefore_iff]
    have later : ∀ place, Stays (token :: rest) (place + 1) ↔ Stays rest place := by
      intro place
      simp [Stays]
    have hmap : (rest.zipIdx (start + 1)).map Prod.fst = rest := List.zipIdx_map_fst _ _
    rw [List.zipIdx_cons, kept, hmap]
    constructor
    · intro hm
      have hm' : (item = (token, start) ∧ staysBefore token rest) ∨ item ∈ kept (rest.zipIdx (start + 1)) := by
        split at hm
        · next hs => exact (List.mem_cons.1 hm).imp (fun hi => ⟨hi, hs⟩) id
        · exact .inr hm
      rcases hm' with ⟨rfl, hs⟩ | hm
      · exact ⟨0, rfl, rfl, first.2 hs⟩
      · obtain ⟨place, hp, ht, hs⟩ := ih.1 hm
        exact ⟨place + 1, by rw [hp]; omega, ht, (later place).2 hs⟩
    · rintro ⟨place, hp, ht, hs⟩
      cases place with
      | zero =>
        obtain rfl : item = (token, start) := Prod.ext (Option.some.inj ht).symm hp
        rw [if_pos (first.1 hs)]
        exact List.mem_cons_self
      | succ place =>
        have hm : item ∈ kept (rest.zipIdx (start + 1)) := ih.2 ⟨place, by rw [hp]; omega, ht, (later place).1 hs⟩
        split
        · exact List.mem_cons_of_mem _ hm
        · exact hm

/-! ## One token -/

/-- A kind can wait on the stack of the conversion. -/
def Waits (kind : Kind) : Prop :=
  kind = .leftParen ∨ kind.isGrouping = false

/-- The stack of operators of some kinds, each from a place. -/
def operators (waiting : List (Kind × Nat)) : List Operator :=
  (waiting.map Prod.fst).map Kind.operator

/-- An operator that waits as a token at its place. -/
def asToken (waiting : Kind × Nat) : Token × Nat :=
  (waiting.1.token, waiting.2)

/-- What waits, the first one to come first, and then the tokens that are left. -/
def row (waiting : List (Kind × Nat)) (left : List (Token × Nat)) : List (Token × Nat) :=
  (waiting.map asToken).reverse ++ left

/-- With some operators waiting, topmost first, a token makes the conversion put out tokens, and leaves others
waiting. -/
inductive Moves : List (Kind × Nat) → Token × Nat → List (Token × Nat) → List (Kind × Nat) → Prop
  | operand (waiting : List (Kind × Nat)) (leaf : Operand) (place : Nat) :
      Moves waiting (.operand leaf, place) [(.operand leaf, place)] waiting
  | opening (waiting : List (Kind × Nat)) (place : Nat) :
      Moves waiting (Kind.leftParen.token, place) [] ((.leftParen, place) :: waiting)
  | closing {above below : List (Kind × Nat)} (free : ∀ top ∈ above, top.1.isGrouping = false) (bracket place : Nat) :
      Moves (above ++ (.leftParen, bracket) :: below) (Kind.rightParen.token, place) (above.map asToken) below
  | comma {above below : List (Kind × Nat)} (free : ∀ top ∈ above, top.1.isGrouping = false) (bracket place : Nat) :
      Moves (above ++ (.leftParen, bracket) :: below) (Kind.comma.token, place) (above.map asToken)
        ((.leftParen, bracket) :: below)
  | operator {kind : Kind} {above below : List (Kind × Nat)} (applied : kind.isGrouping = false)
      (tighter : ∀ top ∈ above, kind.precedence ≤ top.1.precedence)
      (looser : ∀ top ∈ below.head?, top.1.precedence < kind.precedence) (place : Nat) :
      Moves (above ++ below) (kind.token, place) (above.map asToken) ((kind, place) :: below)

theorem precedence_pos_iff {kind : Kind} : 0 < kind.precedence ↔ kind.isGrouping = false := by
  cases kind <;> decide

/-- What binds at least as tight as an operator that is no bracket is none either. -/
theorem free_of_tighter {kind : Kind} {above : List (Kind × Nat)} (applied : kind.isGrouping = false)
    (tighter : ∀ top ∈ above, kind.precedence ≤ top.1.precedence) : ∀ top ∈ above, top.1.isGrouping = false :=
  fun top hm => precedence_pos_iff.1 (Int.lt_of_lt_of_le (precedence_pos_iff.2 applied) (tighter top hm))

@[simp] theorem operators_append (above below : List (Kind × Nat)) :
    operators (above ++ below) = operators above ++ operators below := by
  simp [operators]

@[simp] theorem operators_cons (top : Kind × Nat) (below : List (Kind × Nat)) :
    operators (top :: below) = top.1.operator :: operators below := rfl

theorem map_fst_map_asToken (waiting : List (Kind × Nat)) :
    (waiting.map asToken).map Prod.fst = (waiting.map Prod.fst).map Kind.token := by
  simp [asToken]

variable {waiting waiting' : List (Kind × Nat)} {item : Token × Nat} {out : List (Token × Nat)}

theorem Moves.convert_eq (h : Moves waiting item out waiting') (rest : List Token) :
    convert (operators waiting) (item.1 :: rest) =
      (convert (operators waiting') rest).map (out.map Prod.fst ++ ·) := by
  cases h with
  | operand _ leaf => exact convert_operand _ leaf rest
  | opening =>
    rw [convert_leftParen, operators_cons]
    cases convert (Kind.leftParen.operator :: operators waiting) rest <;> rfl
  | closing free =>
    rw [operators_append, operators_cons, map_fst_map_asToken]
    refine convert_rightParen ?_ _ rest
    simpa [precedence_pos_iff] using free
  | comma free =>
    rw [operators_append, operators_cons, map_fst_map_asToken]
    refine convert_comma ?_ _ rest
    simpa [precedence_pos_iff] using free
  | @operator kind above below applied tighter looser =>
    rw [operators_append, operators_cons, map_fst_map_asToken]
    refine convert_operator applied ?_ ?_ rest
    · simpa using tighter
    · cases below with
      | nil => exact fun _ ht => nomatch ht
      | cons top below =>
        rintro _ ⟨⟩
        exact looser top rfl

/-- Above the topmost bracket that waits there are no brackets. -/
theorem exists_topmost (waits : ∀ top ∈ waiting, Waits top.1) :
    (∀ top ∈ waiting, top.1.isGrouping = false) ∨
      ∃ above bracket below, waiting = above ++ (.leftParen, bracket) :: below ∧
        ∀ top ∈ above, top.1.isGrouping = false := by
  induction waiting with
  | nil => exact .inl (List.forall_mem_nil _)
  | cons top waiting ih =>
    obtain ⟨kind, place⟩ := top
    obtain ⟨here, waits⟩ := List.forall_mem_cons.1 waits
    rcases here with rfl | applied
    · exact .inr ⟨[], place, waiting, rfl, List.forall_mem_nil _⟩
    · rcases ih waits with free | ⟨above, bracket, below, rfl, free⟩
      · exact .inl (List.forall_mem_cons.2 ⟨applied, free⟩)
      · exact .inr ⟨_ :: above, bracket, below, rfl, List.forall_mem_cons.2 ⟨applied, free⟩⟩

theorem splitAtBracket?_eq_none (free : ∀ top ∈ waiting, top.1.isGrouping = false) :
    splitAtBracket? (operators waiting) = none := by
  have hspan : (operators waiting).span (fun operator => operator.kind ≠ .leftParen) = (operators waiting, []) := by
    have := @span_append _ (fun operator : Operator => operator.kind ≠ .leftParen) (operators waiting) [] ?_ (by simp)
    · simpa using this
    · intro operator hm
      obtain ⟨kind, hkind, rfl⟩ := List.mem_map.1 hm
      obtain ⟨top, htop, rfl⟩ := List.mem_map.1 hkind
      have applied := free top htop
      refine decide_eq_true fun hk => ?_
      rw [show top.1 = .leftParen from hk] at applied
      cases applied
  rw [splitAtBracket?, hspan]

theorem convert_of_free {kind : Kind} (closes : kind = .rightParen ∨ kind = .comma)
    (free : ∀ top ∈ waiting, top.1.isGrouping = false) (rest : List Token) :
    convert (operators waiting) (kind.token :: rest) = .error (.unmatched kind.spelling) := by
  have unmatched := splitAtBracket?_eq_none free
  rcases closes with rfl | rfl
  · simp only [Kind.token, convert, Kind.operator.eq_def .rightParen, unmatched]
  · simp only [Kind.token, convert, Kind.operator.eq_def .comma, unmatched]

/-- A token is worked on, unless it is a closing bracket or a comma and no bracket waits. -/
theorem exists_moves (waits : ∀ top ∈ waiting, Waits top.1) (known : item.1.IsKnown) :
    (∃ out waiting', Moves waiting item out waiting') ∨
      (item.1.kind? = some .rightParen ∨ item.1.kind? = some .comma) ∧
        (∀ top ∈ waiting, top.1.isGrouping = false) ∧
        ∀ rest, convert (operators waiting) (item.1 :: rest) = .error (.unmatched item.1.spelling) := by
  obtain ⟨token, place⟩ := item
  cases known with
  | operand leaf => exact .inl ⟨_, _, .operand waiting leaf place⟩
  | operator kind =>
    by_cases applied : kind.isGrouping = false
    · let above := waiting.takeWhile fun top => kind.precedence ≤ top.1.precedence
      let below := waiting.dropWhile fun top => kind.precedence ≤ top.1.precedence
      have hsplit : waiting = above ++ below := List.takeWhile_append_dropWhile.symm
      refine .inl ⟨above.map asToken, (kind, place) :: below, ?_⟩
      rw [hsplit]
      refine .operator applied (fun top ht => ?_) (fun top ht => ?_) place
      · simpa using List.mem_takeWhile_imp ht
      · have := List.head?_dropWhile_not (fun top => decide (kind.precedence ≤ top.1.precedence)) waiting
        rw [ht] at this
        simpa using this
    · have grouping : kind = .leftParen ∨ kind = .rightParen ∨ kind = .comma := by
        revert applied
        cases kind <;> decide
      rcases grouping with rfl | rfl | rfl
      · exact .inl ⟨_, _, .opening waiting place⟩
      · rcases exists_topmost waits with free | ⟨above, bracket, below, rfl, free⟩
        · exact .inr ⟨.inl rfl, free, convert_of_free (.inl rfl) free⟩
        · exact .inl ⟨_, _, .closing free bracket place⟩
      · rcases exists_topmost waits with free | ⟨above, bracket, below, rfl, free⟩
        · exact .inr ⟨.inr rfl, free, convert_of_free (.inr rfl) free⟩
        · exact .inl ⟨_, _, .comma free bracket place⟩

theorem Moves.waits (h : Moves waiting item out waiting') (waits : ∀ top ∈ waiting, Waits top.1) :
    ∀ top ∈ waiting', Waits top.1 := by
  cases h with
  | operand => exact waits
  | opening => exact List.forall_mem_cons.2 ⟨.inl rfl, waits⟩
  | closing => exact fun top hm => waits top (List.mem_append_right _ (List.mem_cons_of_mem _ hm))
  | comma => exact fun top hm => waits top (List.mem_append_right _ hm)
  | operator applied =>
    exact List.forall_mem_cons.2 ⟨.inr applied, fun top hm => waits top (List.mem_append_right _ hm)⟩

/-! ### Open brackets -/

/-- The number of brackets that wait. -/
def brackets (waiting : List (Kind × Nat)) : Nat :=
  waiting.countP fun top => top.1 = .leftParen

theorem brackets_of_free (free : ∀ top ∈ waiting, top.1.isGrouping = false) : brackets waiting = 0 := by
  refine List.countP_eq_zero.2 fun top hm hk => ?_
  have applied := free top hm
  rw [of_decide_eq_true hk] at applied
  cases applied

theorem openedBy_of_applied {kind : Kind} (applied : kind.isGrouping = false) (depth : Nat) :
    openedBy depth kind.token = depth := by
  cases kind <;> first | rfl | cases applied

/-- The brackets that wait are those that are open, and a bracket that closes one and a comma have one. -/
theorem Moves.brackets_eq (h : Moves waiting item out waiting') :
    brackets waiting' = openedBy (brackets waiting) item.1 ∧
      ¬ ((item.1.kind? = some .rightParen ∨ item.1.kind? = some .comma) ∧ brackets waiting = 0) := by
  have hfree : ∀ {above below : List (Kind × Nat)}, (∀ top ∈ above, top.1.isGrouping = false) →
      brackets (above ++ below) = brackets below := by
    intro above below free
    rw [brackets, List.countP_append]
    exact (congrArg (· + _) (brackets_of_free free)).trans (Nat.zero_add _)
  have htop : ∀ {place : Nat} {below : List (Kind × Nat)},
      brackets ((.leftParen, place) :: below) = brackets below + 1 :=
    List.countP_cons_of_pos rfl
  cases h with
  | operand => exact ⟨rfl, by simp [Token.kind?]⟩
  | opening => exact ⟨htop, by simp [Token.kind?, Kind.token, Kind.operator]⟩
  | closing free =>
    rw [hfree free, htop]
    exact ⟨rfl, by omega⟩
  | comma free =>
    rw [hfree free, htop]
    exact ⟨rfl, by omega⟩
  | @operator kind above below applied tighter =>
    rw [hfree (free_of_tighter applied tighter), openedBy_of_applied applied]
    refine ⟨List.countP_cons_of_neg ?_, ?_⟩
    · intro hk
      obtain rfl : kind = .leftParen := of_decide_eq_true hk
      cases applied
    · rintro ⟨hk | hk, -⟩
      all_goals
        obtain rfl := Option.some.inj hk
        cases applied

/-! ### The row -/

theorem row_append (above below : List (Kind × Nat)) (left : List (Token × Nat)) :
    row (above ++ below) left = row below ((above.map asToken).reverse ++ left) := by
  simp [row]

theorem row_cons (top : Kind × Nat) (below : List (Kind × Nat)) (left : List (Token × Nat)) :
    row (top :: below) left = row below (asToken top :: left) := by
  simp [row]

theorem row_sublist (waiting : List (Kind × Nat)) {left left' : List (Token × Nat)} (h : left'.Sublist left) :
    (row waiting left').Sublist (row waiting left) :=
  h.append_left _

/-- A step moves no token in the row. -/
theorem Moves.sublist (h : Moves waiting item out waiting') (left : List (Token × Nat)) :
    (row waiting' left).Sublist (row waiting (item :: left)) := by
  have behind : left.Sublist (item :: left) := List.sublist_cons_self item left
  cases h with
  | operand => exact row_sublist _ behind
  | opening => rw [row_cons]; exact List.Sublist.refl _
  | closing =>
    rw [row_append, row_cons]
    exact row_sublist _ ((behind.trans (List.sublist_append_right _ _)).cons _)
  | comma =>
    rw [row_append, row_cons, row_cons]
    exact row_sublist _ ((behind.trans (List.sublist_append_right _ _)).cons_cons _)
  | operator =>
    rw [row_append, row_cons]
    exact row_sublist _ (List.sublist_append_right _ _)

/-- The brackets of some tokens in a row. -/
def rowBrackets (items : List (Token × Nat)) : List Bracket :=
  (items.map Prod.fst).filterMap ofToken?

theorem kept_cons_of_stays {left : List (Token × Nat)} (h : staysBefore item.1 (left.map Prod.fst)) :
    kept (item :: left) = item :: kept left :=
  if_pos h

theorem kept_cons_of_not_stays {left : List (Token × Nat)} (h : staysBefore item.1 (left.map Prod.fst) = false) :
    kept (item :: left) = kept left :=
  if_neg (Bool.not_eq_true _ ▸ h)

/-- Some tokens that stay can be put out before the rest of a row: for the tokens before them, the rest has the same
brackets. -/
structure TakesOut (left out left' : List (Token × Nat)) : Prop where
  brackets (depth : Nat) : nesting depth (rowBrackets left) = nesting depth (rowBrackets left')
  perm : (kept left).Perm (out ++ kept left')

theorem TakesOut.append {left left' : List (Token × Nat)} (h : TakesOut left out left') (front : List (Token × Nat)) :
    (kept (front ++ left)).Perm (out ++ kept (front ++ left')) := by
  induction front with
  | nil => exact h.perm
  | cons item front ih =>
    have brackets : nesting 0 (rowBrackets (front ++ left)) = nesting 0 (rowBrackets (front ++ left')) := by
      have same := funext h.brackets
      simp only [rowBrackets, List.map_append, List.filterMap_append, nesting_append] at same ⊢
      rw [same]
    have stays : staysBefore item.1 ((front ++ left).map Prod.fst) =
        staysBefore item.1 ((front ++ left').map Prod.fst) := by
      rw [staysBefore, staysBefore]
      split <;> first | rfl | exact congrArg Option.isSome brackets
    rw [List.cons_append, List.cons_append, kept, kept, stays]
    split
    · exact (ih.cons item).trans List.perm_middle.symm
    · exact ih

theorem rowBrackets_cons_none (h : ofToken? item.1 = none) (left : List (Token × Nat)) :
    rowBrackets (item :: left) = rowBrackets left :=
  List.filterMap_cons_none h

theorem ofToken?_of_applied {kind : Kind} (applied : kind.isGrouping = false) : ofToken? kind.token = none := by
  cases kind <;> first | rfl | cases applied

theorem staysBefore_of_applied {kind : Kind} (applied : kind.isGrouping = false) (rest : List Token) :
    staysBefore kind.token rest := by
  cases kind <;> first | rfl | cases applied

/-- Operators that are no brackets stay, and are no brackets for those around them. -/
theorem row_free (free : ∀ top ∈ waiting, top.1.isGrouping = false) (left : List (Token × Nat)) :
    rowBrackets ((waiting.map asToken).reverse ++ left) = rowBrackets left ∧
      kept ((waiting.map asToken).reverse ++ left) = (waiting.map asToken).reverse ++ kept left := by
  induction waiting generalizing left with
  | nil => exact ⟨rfl, rfl⟩
  | cons top waiting ih =>
    obtain ⟨applied, free⟩ := List.forall_mem_cons.1 free
    obtain ⟨brackets, stay⟩ := ih free (asToken top :: left)
    rw [List.map_cons, List.reverse_cons, List.append_assoc, List.append_assoc, List.singleton_append,
      List.singleton_append, brackets, stay]
    exact ⟨rowBrackets_cons_none (ofToken?_of_applied applied) left,
      congrArg _ (kept_cons_of_stays (staysBefore_of_applied applied _))⟩

theorem TakesOut.operand (leaf : Operand) (place : Nat) (left : List (Token × Nat)) :
    TakesOut ((.operand leaf, place) :: left) [(.operand leaf, place)] left where
  brackets _ := rfl
  perm := by
    rw [kept_cons_of_stays rfl]
    exact List.Perm.refl _

theorem TakesOut.free {above : List (Kind × Nat)} (free : ∀ top ∈ above, top.1.isGrouping = false)
    (left : List (Token × Nat)) : TakesOut ((above.map asToken).reverse ++ left) (above.map asToken) left where
  brackets depth := congrArg (nesting depth) (row_free free left).1
  perm := by
    rw [(row_free free left).2]
    exact (List.reverse_perm _).append_right _

/-- What a step puts out and what stays of the row behind it are what stays of the row before it. -/
theorem Moves.perm (h : Moves waiting item out waiting') (left : List (Token × Nat)) :
    (kept (row waiting (item :: left))).Perm (out ++ kept (row waiting' left)) := by
  cases h with
  | operand _ leaf place => exact (TakesOut.operand leaf place left).append _
  | opening => rw [row_cons]; exact List.Perm.refl _
  | @closing above below free bracket place =>
    have inner := TakesOut.free free ((Kind.rightParen.token, place) :: left)
    have pair : TakesOut (asToken (.leftParen, bracket) ::
        ((above.map asToken).reverse ++ (Kind.rightParen.token, place) :: left)) (above.map asToken) left := by
      refine ⟨fun depth => inner.brackets (depth + 1), ?_⟩
      have closed : staysBefore Kind.leftParen.token
          (((above.map asToken).reverse ++ (Kind.rightParen.token, place) :: left).map Prod.fst) = false :=
        congrArg Option.isSome (inner.brackets 0)
      have perm := inner.perm
      rw [kept_cons_of_not_stays closed]
      rwa [@kept_cons_of_not_stays (Kind.rightParen.token, place) left rfl] at perm
    rw [row_append, row_cons]
    exact pair.append _
  | @comma above below free bracket place =>
    have inner := TakesOut.free free ((Kind.comma.token, place) :: left)
    have pair :
        TakesOut ((above.map asToken).reverse ++ (Kind.comma.token, place) :: left) (above.map asToken) left := by
      refine ⟨inner.brackets, ?_⟩
      have perm := inner.perm
      rwa [@kept_cons_of_not_stays (Kind.comma.token, place) left rfl] at perm
    rw [row_append]
    exact pair.append _
  | @operator kind above below applied tighter looser place =>
    rw [row_append, row_cons]
    exact (TakesOut.free (free_of_tighter applied tighter) _).append _

theorem isOperand_of_waiting {found : Token × Nat} (hm : found ∈ waiting.map asToken) : found.1.isOperand = false := by
  obtain ⟨top, -, rfl⟩ := List.mem_map.1 hm
  rfl

/-- A step puts out the operand that it works on, or operators that waited. -/
theorem Moves.out_cases (h : Moves waiting item out waiting') :
    out = [item] ∨ ∀ found ∈ out, found ∈ waiting.map asToken := by
  have taken : ∀ above below : List (Kind × Nat), ∀ found ∈ above.map asToken,
      found ∈ (above ++ below).map asToken := by
    intro above below found hm
    rw [List.map_append]
    exact List.mem_append_left _ hm
  cases h with
  | operand => exact .inl rfl
  | opening => exact .inr (List.forall_mem_nil _)
  | closing => exact .inr (taken _ _)
  | comma => exact .inr (taken _ _)
  | operator => exact .inr (taken _ _)

/-! ## All tokens -/

/-- The places in a row grow. -/
def Sorted (items : List (Token × Nat)) : Prop :=
  items.Pairwise fun first second => first.2 < second.2

/-- No operand comes behind a token that it stood before. -/
def Ordered (items : List (Token × Nat)) : Prop :=
  items.Pairwise fun first second => second.1.isOperand → first.2 < second.2

theorem ordered_of_waiting {items : List (Token × Nat)} (h : ∀ found ∈ items, found ∈ waiting.map asToken) :
    Ordered items := by
  refine List.pairwise_of_forall_mem_list fun first _ second hm operand => ?_
  rw [isOperand_of_waiting (h second hm)] at operand
  cases operand

theorem kept_sublist (items : List (Token × Nat)) : (kept items).Sublist items := by
  induction items with
  | nil => exact List.Sublist.slnil
  | cons item items ih =>
    rw [kept]
    split
    · exact ih.cons_cons item
    · exact ih.cons item

/-- What a step puts out may stand before what the rest of the row becomes. -/
theorem Moves.ordered (h : Moves waiting item out waiting') {left items : List (Token × Nat)}
    (sorted : Sorted (row waiting (item :: left))) (perm : items.Perm (kept (row waiting' left)))
    (ordered : Ordered items) : Ordered (out ++ items) := by
  obtain ⟨-, behind, across⟩ := List.pairwise_append.1 sorted
  refine List.pairwise_append.2 ⟨?_, ordered, fun found hfound later hlater operand => ?_⟩
  · rcases h.out_cases with rfl | waited
    · exact List.pairwise_singleton _ _
    · exact ordered_of_waiting waited
  · -- An operand that is put out later is still left, so it stands behind this token and all that waited.
    have hrow : later ∈ row waiting' left := (kept_sublist _).subset (perm.mem_iff.1 hlater)
    have hleft : later ∈ left := by
      refine (List.mem_append.1 hrow).resolve_left fun hw => ?_
      rw [isOperand_of_waiting (List.mem_reverse.1 hw)] at operand
      cases operand
    rcases h.out_cases with rfl | waited
    · obtain rfl := List.mem_singleton.1 hfound
      exact (List.pairwise_cons.1 behind).1 later hleft
    · exact across found (List.mem_reverse.2 (waited found hfound)) later (List.mem_cons_of_mem _ hleft)

/-- What waits at the end stays, brackets too. -/
theorem kept_row {left : List (Token × Nat)} (unclosed : ∀ depth, (nesting depth (rowBrackets left)).isSome)
    (waits : ∀ top ∈ waiting, Waits top.1) : kept (row waiting left) = row waiting (kept left) := by
  induction waiting generalizing left with
  | nil => rfl
  | cons top waiting ih =>
    obtain ⟨kind, place⟩ := top
    obtain ⟨here, below⟩ := List.forall_mem_cons.1 waits
    rw [row_cons, row_cons]
    rcases here with rfl | applied
    · have unclosed' : ∀ depth, (nesting depth (rowBrackets (asToken (.leftParen, place) :: left))).isSome :=
        fun depth => unclosed (depth + 1)
      have stays : staysBefore Kind.leftParen.token (left.map Prod.fst) := unclosed 0
      rw [ih unclosed' below]
      exact congrArg _ (kept_cons_of_stays stays)
    · have same : rowBrackets (asToken (kind, place) :: left) = rowBrackets left :=
        rowBrackets_cons_none (ofToken?_of_applied applied) left
      rw [ih (fun depth => by rw [same]; exact unclosed depth) below]
      exact congrArg _ (kept_cons_of_stays (staysBefore_of_applied applied _))

/-- The conversion puts out what stays of the row of tokens. -/
theorem exists_ordered {left : List (Token × Nat)} (waits : ∀ top ∈ waiting, Waits top.1)
    (known : ∀ item ∈ left, item.1.IsKnown) (sorted : Sorted (row waiting left)) {code : Code}
    (h : convert (operators waiting) (left.map Prod.fst) = .ok code) :
    ∃ items, items.map Prod.fst = code ∧ items.Perm (kept (row waiting left)) ∧ Ordered items := by
  induction left generalizing waiting code with
  | nil =>
    obtain rfl := Except.ok.inj h
    refine ⟨waiting.map asToken, ?_, ?_, ordered_of_waiting fun _ hm => hm⟩
    · rw [map_fst_map_asToken, operators, map_operator]
    · rw [kept_row (fun _ => rfl) waits, kept, row, List.append_nil]
      exact (List.reverse_perm _).symm
  | cons item left ih =>
    obtain ⟨here, known⟩ := List.forall_mem_cons.1 known
    rcases exists_moves waits here with ⟨out, waiting', moves⟩ | ⟨-, -, hf⟩
    · rw [List.map_cons, moves.convert_eq] at h
      cases hc : convert (operators waiting') (left.map Prod.fst) with
      | error => rw [hc] at h; cases h
      | ok code' =>
        rw [hc] at h
        obtain rfl := Except.ok.inj h
        obtain ⟨items, rfl, perm, ordered⟩ := ih (moves.waits waits) known (sorted.sublist (moves.sublist left)) hc
        exact ⟨out ++ items, List.map_append, (perm.append_left out).trans (moves.perm left).symm,
          moves.ordered sorted perm ordered⟩
    · rw [List.map_cons, hf] at h
      cases h

theorem firstStray_zero {depth : Nat} {token : Token} {rest : List Token}
    (closes : token.kind? = some .rightParen ∨ token.kind? = some .comma) (closed : depth = 0) :
    FirstStray depth (token :: rest) 0 :=
  ⟨stray_zero_iff.2 ⟨closes, closed⟩, fun _ hb => absurd hb (Nat.not_lt_zero _)⟩

theorem firstStray_succ {depth place : Nat} {token : Token} {rest : List Token}
    (here : ¬ Stray depth (token :: rest) 0) (h : FirstStray (openedBy depth token) rest place) :
    FirstStray depth (token :: rest) (place + 1) := by
  refine ⟨stray_succ_iff.2 h.1, fun before hb => ?_⟩
  cases before with
  | zero => exact here
  | succ before => exact fun hs => h.2 before (by omega) (stray_succ_iff.1 hs)

/-- The conversion succeeds if no token is stray, and fails at the first that is. -/
theorem convert_cases {tokens : List Token} (waits : ∀ top ∈ waiting, Waits top.1)
    (known : ∀ token ∈ tokens, token.IsKnown) :
    (∃ code, convert (operators waiting) tokens = .ok code) ∧ (∀ place, ¬ Stray (brackets waiting) tokens place) ∨
      ∃ place token, FirstStray (brackets waiting) tokens place ∧ tokens[place]? = some token ∧
        convert (operators waiting) tokens = .error (.unmatched token.spelling) := by
  induction tokens generalizing waiting with
  | nil => exact .inl ⟨⟨_, rfl⟩, fun place ⟨_, ht, _⟩ => nomatch ht⟩
  | cons token rest ih =>
    obtain ⟨here, known⟩ := List.forall_mem_cons.1 known
    have here : (token, 0).1.IsKnown := here
    rcases exists_moves waits here with ⟨out, waiting', moves⟩ | ⟨closes, free, hf⟩
    · obtain ⟨opened, paired⟩ := moves.brackets_eq
      have unstray : ¬ Stray (brackets waiting) (token :: rest) 0 := fun hs => paired (stray_zero_iff.1 hs)
      rcases ih (moves.waits waits) known with ⟨⟨code, hc⟩, none⟩ | ⟨place, found, first, hp, he⟩
      · refine .inl ⟨⟨_, by rw [moves.convert_eq, hc]; rfl⟩, fun place hs => ?_⟩
        cases place with
        | zero => exact unstray hs
        | succ place => exact none place (opened ▸ stray_succ_iff.1 hs)
      · refine .inr ⟨place + 1, found, firstStray_succ unstray (opened ▸ first), hp, ?_⟩
        rw [moves.convert_eq, he]
        rfl
    · exact .inr ⟨0, token, firstStray_zero closes (brackets_of_free free), rfl, hf rest⟩

theorem sorted_zipIdx (tokens : List Token) : Sorted tokens.zipIdx := by
  refine List.pairwise_map.1 ?_
  rw [List.zipIdx_map_snd]
  exact List.pairwise_lt_range'

/-- The places of what is put out: those of the tokens that stay, each once. -/
theorem exists_order {tokens : List Token} (known : ∀ token ∈ tokens, token.IsKnown) {code : Code}
    (h : convert [] tokens = .ok code) :
    ∃ order : List Nat, order.Nodup ∧ (∀ place, place ∈ order ↔ Stays tokens place) ∧
      code.map some = order.map (tokens[·]?) ∧
      order.Pairwise fun first second => (tokens[second]?).any Token.isOperand → first < second := by
  have known : ∀ item ∈ tokens.zipIdx, item.1.IsKnown := fun item hm => known _ (List.fst_mem_of_mem_zipIdx hm)
  rw [← List.zipIdx_map_fst 0 tokens] at h
  obtain ⟨items, rfl, perm, ordered⟩ :=
    @exists_ordered [] tokens.zipIdx (List.forall_mem_nil _) known (sorted_zipIdx tokens) code h
  have mem_iff : ∀ item, item ∈ items ↔ tokens[item.2]? = some item.1 ∧ Stays tokens item.2 := by
    intro item
    rw [perm.mem_iff]
    refine mem_kept_zipIdx.trans ⟨?_, fun ⟨ht, hs⟩ => ⟨item.2, (Nat.zero_add _).symm, ht, hs⟩⟩
    rintro ⟨place, hp, ht, hs⟩
    rw [Nat.zero_add] at hp
    exact ⟨hp ▸ ht, hp ▸ hs⟩
  refine ⟨items.map Prod.snd, ?_, fun place => ?_, ?_, ?_⟩
  · have distinct : (tokens.zipIdx.map Prod.snd).Nodup := List.nodup_zipIdx_map_snd tokens
    exact (perm.map _).nodup_iff.2 (distinct.sublist ((kept_sublist _).map _))
  · constructor
    · intro hm
      obtain ⟨item, hitem, rfl⟩ := List.mem_map.1 hm
      exact ((mem_iff item).1 hitem).2
    · intro hs
      obtain ⟨token, ht, -⟩ := id hs
      exact List.mem_map.2 ⟨(token, place), (mem_iff _).2 ⟨ht, hs⟩, rfl⟩
  · rw [List.map_map, List.map_map]
    exact List.map_congr_left fun item hm => ((mem_iff item).1 hm).1.symm
  · refine List.pairwise_map.2 (ordered.imp_of_mem fun {first second} _ hm less operand => less ?_)
    rw [((mem_iff second).1 hm).1] at operand
    exact operand

/-- A conversion fails iff a closing bracket or a comma stands where no bracket is open, and logs the first of these as
an error. Otherwise it puts out the tokens that stay, each once, in an order in which operands keep theirs and operators
come behind the operands that they stood behind. -/
theorem ofTokens_conserves {tokens : List Token} (known : ∀ token ∈ tokens, token.IsKnown) :
    ((∃ error, (ofTokens tokens).outcome = .error error) ↔ ∃ place, Stray 0 tokens place) ∧
    (∀ place token, FirstStray 0 tokens place → tokens[place]? = some token →
      (ofTokens tokens).outcome = .error (.unmatched token.spelling) ∧
      ∃ event, (ofTokens tokens).log = [event] ∧ event.level = .error ∧
        event.message = s!"Unmatched '{token.spelling}' reached the postfix conversion") ∧
    ∀ code, (ofTokens tokens).outcome = .ok code → (ofTokens tokens).log = [] ∧
      ∃ order : List Nat, order.Nodup ∧ (∀ place, place ∈ order ↔ Stays tokens place) ∧
        code.map some = order.map (tokens[·]?) ∧
        order.Pairwise fun first second => (tokens[second]?).any Token.isOperand → first < second := by
  have cases : (∃ code, convert [] tokens = .ok code) ∧ (∀ place, ¬ Stray 0 tokens place) ∨
      ∃ place token, FirstStray 0 tokens place ∧ tokens[place]? = some token ∧
        convert [] tokens = .error (.unmatched token.spelling) :=
    @convert_cases [] tokens (List.forall_mem_nil _) known
  rcases cases with ⟨⟨code, hc⟩, none⟩ | ⟨place, token, first, hp, he⟩
  · have report : ofTokens tokens = ⟨.ok code, []⟩ := by
      rw [ofTokens, hc]
      rfl
    rw [report]
    refine ⟨⟨fun ⟨_, h⟩ => (nomatch h), fun ⟨place, hs⟩ => absurd hs (none place)⟩,
      fun place _ first _ => absurd first.1 (none place), fun code' hc' => ?_⟩
    obtain rfl := Except.ok.inj hc'
    exact ⟨rfl, exists_order known hc⟩
  · have report : ofTokens tokens = ⟨.error (.unmatched token.spelling), [.unmatched token.spelling]⟩ := by
      rw [ofTokens, he]
      rfl
    rw [report]
    refine ⟨⟨fun _ => ⟨place, first.1⟩, fun _ => ⟨_, rfl⟩⟩, fun place' token' first' hp' => ?_,
      fun _ hc => nomatch hc⟩
    -- There is one first stray token.
    have same : place' = place := by
      rcases Nat.lt_trichotomy place' place with less | same | more
      · exact absurd first'.1 (first.2 place' less)
      · exact same
      · exact absurd first.1 (first'.2 place more)
    rw [same, hp] at hp'
    obtain rfl := Option.some.inj hp'
    exact ⟨rfl, _, rfl, rfl, rfl⟩

/-- A bracket that stays open is put out, before the difference that it stands behind, and one that is closed is not. A
comma outside of brackets is stray, and it is named before the bracket behind it, which is stray too. -/
theorem ofTokens_conserves_open_bracket :
    (∃ order : List Nat, order.Nodup ∧
      (∀ place, place ∈ order ↔ Stays [Kind.leftParen.token, .operand .pi, Kind.rightParen.token, Kind.subtract.token,
        Kind.leftParen.token, .operand .x] place) ∧
      [some (.operand .pi), some (.operand .x), some Kind.leftParen.token, some Kind.subtract.token] =
        order.map ([Kind.leftParen.token, .operand .pi, Kind.rightParen.token, Kind.subtract.token,
          Kind.leftParen.token, .operand .x][·]?)) ∧
    (ofTokens [.operand .x, Kind.comma.token, Kind.rightParen.token]).outcome = .error (.unmatched ",") := by
  have known : ∀ token ∈ [Kind.leftParen.token, .operand .pi, Kind.rightParen.token, Kind.subtract.token,
      Kind.leftParen.token, .operand .x], token.IsKnown := by
    simp only [List.forall_mem_cons, List.not_mem_nil, false_implies, implies_true, and_true]
    exact ⟨.operator .leftParen, .operand .pi, .operator .rightParen, .operator .subtract, .operator .leftParen,
      .operand .x⟩
  have known' : ∀ token ∈ [.operand .x, Kind.comma.token, Kind.rightParen.token], token.IsKnown := by
    simp only [List.forall_mem_cons, List.not_mem_nil, false_implies, implies_true, and_true]
    exact ⟨.operand .x, .operator .comma, .operator .rightParen⟩
  have first : FirstStray 0 [.operand .x, Kind.comma.token, Kind.rightParen.token] 1 := by
    refine ⟨⟨Kind.comma.token, rfl, .inr rfl, rfl⟩, fun before hb => ?_⟩
    obtain rfl : before = 0 := by omega
    rintro ⟨_, ⟨⟩, hk | hk, -⟩ <;> cases hk
  obtain ⟨-, order, distinct, places, code, -⟩ := (ofTokens_conserves known).2.2 _ rfl
  exact ⟨⟨order, distinct, places, code⟩, ((ofTokens_conserves known').2.1 1 _ first rfl).1⟩

end Code

end Formula
