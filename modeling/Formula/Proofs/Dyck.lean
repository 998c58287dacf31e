import Formula.Proofs.Balance
import Formula.Proofs.Pairing
import Formula.Proofs.SinglePass
/-!
# The language of matching brackets

Brackets match if they are derived from `B := empty | '(' B ')' B` (`Dyck`). The scan that a text passes before it is
read decides this language, and finds the first closing bracket without a partner, or the end of a text in which only
opening brackets lack one (`unmatched?_decides_dyck`). What passes the scan has tokens whose brackets match too, as soon
as all of its lexemes are accepted.
-/

namespace Formula

namespace Bracket

/-- Brackets that match: none, or a first one and its partner with matching brackets between and behind them. -/
inductive Dyck : List Bracket → Prop
  | none : Dyck []
  | pair {inner outer : List Bracket} (between : Dyck inner) (behind : Dyck outer) :
      Dyck (.opening :: inner ++ .closing :: outer)

/-- Brackets that close so many open ones: those that match, with a closing one between two rows of them. -/
inductive Closes : Nat → List Bracket → Prop
  | last {brackets : List Bracket} (dyck : Dyck brackets) : Closes 0 brackets
  | next {depth : Nat} {inner outer : List Bracket} (dyck : Dyck inner) (closes : Closes depth outer) :
      Closes (depth + 1) (inner ++ .closing :: outer)

variable {brackets inner : List Bracket} {depth : Nat}

theorem Dyck.nesting_eq (h : Dyck brackets) (depth : Nat) : nesting depth brackets = some depth := by
  induction h generalizing depth with
  | none => rfl
  | pair _ _ ihb ihf =>
    rw [List.cons_append, nesting, nesting_append_of_eq (ihb _), nesting, if_neg (Nat.succ_ne_zero depth)]
    exact ihf depth

/-- A pair may stand before the first row. -/
theorem Closes.pair (between : Dyck inner) (h : Closes depth brackets) :
    Closes depth (.opening :: inner ++ .closing :: brackets) := by
  cases h with
  | last dyck => exact .last (.pair between dyck)
  | @next depth first outer dyck closes =>
    have := Closes.next (.pair between dyck) closes
    simpa using this

theorem closes_of_nesting (h : nesting depth brackets = some 0) : Closes depth brackets := by
  induction brackets generalizing depth with
  | nil =>
    obtain rfl : depth = 0 := Option.some.inj h
    exact .last .none
  | cons bracket rest ih =>
    cases bracket with
    | opening =>
      cases ih h with
      | next dyck closes => exact closes.pair dyck
    | closing =>
      cases depth with
      | zero => cases h
      | succ depth => exact .next .none (ih h)

/-- Counting the open brackets decides whether brackets match. -/
theorem nesting_eq_zero_iff : nesting 0 brackets = some 0 ↔ Dyck brackets := by
  constructor
  · intro h
    cases closes_of_nesting h with
    | last dyck => exact dyck
  · exact fun h => h.nesting_eq 0

/-! ## Open brackets and their number -/

variable {row : List (Option Bracket)}

theorem length_opened (h : nesting 0 row.reduceOption = some depth) : (opened row).length = depth := by
  induction row using List.reverseRecOn generalizing depth with
  | nil => exact Option.some.inj h
  | append_singleton row entry ih =>
    rw [opened_concat]
    rw [List.reduceOption_append, nesting_append] at h
    obtain ⟨before, hb, hl⟩ := Option.bind_eq_some_iff.1 h
    rcases entry with _ | _ | _
    · rw [← Option.some.inj hl, ← ih hb]
      rfl
    · rw [← Option.some.inj hl, ← ih hb]
      rfl
    · by_cases h0 : before = 0
      · subst h0
        cases hl
      · have : before - 1 = depth := by simpa [List.reduceOption, nesting, h0] using hl
        rw [← this, ← ih hb]
        exact List.length_tail

/-- An opening bracket is open behind a row, or there is a closing one for it. -/
theorem count_opening_le (row : List (Option Bracket)) :
    row.count (some .opening) ≤ row.count (some .closing) + (opened row).length := by
  induction row using List.reverseRecOn with
  | nil => exact Nat.zero_le _
  | append_singleton row entry ih =>
    rw [List.count_append, List.count_append, opened_concat]
    rcases entry with _ | _ | _
    · simpa [openedBehind] using ih
    · simp only [openedBehind, List.count_singleton, List.length_cons]
      simp
      omega
    · simp only [openedBehind, List.count_singleton, List.length_tail]
      simp
      omega

end Bracket

open Formula.Bracket

/-! ## The scan of a text -/

def Bracket.char : Bracket → Char
  | .opening => '('
  | .closing => ')'

theorem unmatched?_eq_none_iff_dyck {text : List Char} :
    Brackets.unmatched? text = none ↔ Dyck (text.filterMap ofChar?) :=
  unmatchedFrom?_eq_none_iff.trans nesting_eq_zero_iff

theorem Bracket.ofChar?_eq_some_iff {c : Char} {bracket : Bracket} : ofChar? c = some bracket ↔ c = bracket.char := by
  unfold ofChar?
  split
  · next h => cases bracket <;> simp [h, Bracket.char]
  · next h =>
    split
    · next h' => cases bracket <;> simp [h', Bracket.char]
    · next h' => cases bracket <;> simp [h, h', Bracket.char]

theorem Bracket.getElem?_map_ofChar? {text : List Char} {place : Nat} {bracket : Bracket} :
    (text.map ofChar?)[place]? = some (some bracket) ↔ text[place]? = some bracket.char := by
  simp [List.getElem?_map, Option.map_eq_some_iff, ofChar?_eq_some_iff]

theorem Bracket.count_map_ofChar? (text : List Char) (bracket : Bracket) :
    (text.map ofChar?).count (some bracket) = text.count bracket.char := by
  rw [List.count_eq_countP, List.countP_map, List.count_eq_countP]
  refine List.countP_congr fun c _ => ?_
  simp [ofChar?_eq_some_iff]

/-- More brackets of a text are opened than closed only if some stay open. -/
theorem count_le_add_opened (text : List Char) :
    text.count '(' ≤ text.count ')' + (opened (text.map ofChar?)).length := by
  have := count_opening_le (text.map ofChar?)
  rwa [count_map_ofChar?, count_map_ofChar?] at this

theorem opened_eq_nil_of_dyck {text : List Char} (h : Dyck (text.filterMap ofChar?)) :
    opened (text.map ofChar?) = [] := by
  have same : (text.map ofChar?).reduceOption = text.filterMap ofChar? := by
    rw [List.reduceOption, List.filterMap_map]
    rfl
  refine List.length_eq_zero_iff.1 (length_opened ?_)
  rw [same, h.nesting_eq]

/-- The place at which the scan of a text stops. -/
inductive Stops (text : List Char) (place : Nat) : Prop
  /-- The first closing bracket without a partner. Those before it match. -/
  | closing (closing : text[place]? = some ')') (dyck : Dyck ((text.take place).filterMap ofChar?))
      (single : ∀ first, ¬ Pairs (text.map ofChar?) first place)
      (earlier : ∀ before < place, text[before]? = some ')' → ∃ first, Pairs (text.map ofChar?) first before) :
      Stops text place
  /-- The last character, if no more brackets are closed than opened from the beginning to any place, and an opening one
  has no partner. -/
  | opening (covered : ∀ part, part <+: text → part.count ')' ≤ part.count '(')
      (single : ∃ first, text[first]? = some '(' ∧ ∀ last, ¬ Pairs (text.map ofChar?) first last)
      (last : place = text.length - 1) : Stops text place

/-- A closing bracket has a partner if up to it no more brackets are closed than opened. -/
theorem exists_pairs_closing {text : List Char} {place : Nat} (closing : text[place]? = some ')')
    (covered : (text.take (place + 1)).count ')' ≤ (text.take (place + 1)).count '(') :
    ∃ first, Pairs (text.map ofChar?) first place := by
  have waiting : opened ((text.take place).map ofChar?) ≠ [] := by
    intro none
    have := count_le_add_opened (text.take place)
    rw [none, List.length_nil] at this
    rw [List.take_add_one, closing, Option.toList_some, List.count_append, List.count_append] at covered
    simp at covered
    omega
  obtain ⟨first, outer, ho⟩ := List.exists_cons_of_ne_nil waiting
  refine ⟨first, getElem?_map_ofChar?.2 closing, ?_⟩
  rw [← List.map_take, ho, List.head?_cons]

theorem stops_of_unmatched? {text : List Char} {place : Nat} (h : Brackets.unmatched? text = some place) :
    place < text.length ∧ Stops text place := by
  cases Brackets.unmatched_of_scan h with
  | @closing front rest covered settled =>
    rw [Nat.zero_add] at settled ⊢
    have dyck : Dyck (front.filterMap ofChar?) :=
      unmatched?_eq_none_iff_dyck.1 (Brackets.unmatched?_eq_none_iff.2 ⟨covered, settled⟩)
    refine ⟨by simp, .closing (by simp) (by simpa using dyck) ?_ ?_⟩
    · rintro first ⟨-, innermost⟩
      rw [← List.map_take, List.take_left, opened_eq_nil_of_dyck dyck] at innermost
      cases innermost
    · intro before hb closing
      refine exists_pairs_closing closing ?_
      rw [List.take_append_of_le_length hb]
      simpa using covered _ (List.take_prefix _ front)
  | opening covered left =>
    rw [Nat.zero_add] at left ⊢
    have waiting : opened (text.map ofChar?) ≠ [] := by
      intro none
      have := count_le_add_opened text
      rw [none, List.length_nil] at this
      omega
    obtain ⟨first, outer, ho⟩ := List.exists_cons_of_ne_nil waiting
    obtain ⟨opening, single⟩ := mem_opened_iff.1 (ho ▸ List.mem_cons_self : first ∈ opened (text.map ofChar?))
    have inside : 0 < text.length := by
      have := lt_of_mem_opened (ho ▸ List.mem_cons_self : first ∈ opened (text.map ofChar?))
      rw [List.length_map] at this
      omega
    refine ⟨by omega, .opening (by simpa [Covered] using covered) ⟨first, ?_, single⟩ rfl⟩
    exact getElem?_map_ofChar?.1 opening

/-! ## From a text to its tokens -/

/-- On its way through a text that passes the scan, the tokenizer has accepted some tokens. Some lexemes are still
ahead. -/
structure Scans (text : List Char) (tokens : List Token) (ahead : List Lexeme) : Prop where
  nonempty : text ≠ []
  matched : Brackets.unmatched? text = none
  accepted : ∃ passed, Lexeme.ofText 0 text = passed ++ ahead ∧ acceptAll [] passed = .ok tokens.reverse

theorem scans_of_tokensOf {text : List Char} {tokens : List Token} (h : tokensOf text = .ok tokens) :
    Scans text tokens [] := by
  obtain ⟨nonempty, matched, accepted, -⟩ := tokensOf_eq_ok_iff_acceptAll.1 h
  exact ⟨nonempty, matched, _, (List.append_nil _).symm, accepted⟩

/-- A lexeme is a bracket iff it becomes one. -/
theorem Admits.bracket {recent : List Token} {lexeme token : Token} (h : Admits recent lexeme token) :
    ofToken? token = ofToken? lexeme := by
  cases h <;> rfl

theorem Admitted.brackets {recent lexemes final : List Token} (h : Admitted recent lexemes final) :
    final.reverse.filterMap ofToken? = recent.reverse.filterMap ofToken? ++ lexemes.filterMap ofToken? := by
  induction h with
  | nil => simp
  | cons admits _ ih =>
    rw [ih, List.reverse_cons, List.filterMap_append, List.append_assoc, List.filterMap_cons, List.filterMap_cons,
      admits.bracket]
    cases ofToken? _ <;> rfl

/-- Behind its last lexeme, a text has tokens with its own brackets. -/
theorem Scans.brackets {text : List Char} {tokens : List Token} (h : Scans text tokens []) :
    tokens.filterMap ofToken? = text.filterMap ofChar? := by
  obtain ⟨passed, split, accepted⟩ := h.accepted
  rw [List.append_nil] at split
  rw [← split] at accepted
  obtain ⟨lexemes, cuts, admitted⟩ := acceptAll_ofText_eq_ok_iff.1 accepted
  rw [cuts.brackets]
  simpa using admitted.brackets

/-- The scan finds nothing iff the brackets of a definition match. Otherwise it stops inside of the definition, at the
first closing bracket without a partner, or at the end if only opening ones lack a partner. The tokens of a definition
whose lexemes are all accepted have matching brackets, also if the last one leaves a term open. -/
theorem unmatched?_decides_dyck (definition : String) :
    (Brackets.unmatched? definition.toList = none ↔ Dyck (definition.toList.filterMap ofChar?)) ∧
      (∀ place, Brackets.unmatched? definition.toList = some place →
        place < definition.length ∧ Stops definition.toList place) ∧
      (∀ tokens, Scans definition.toList tokens [] → Dyck (tokens.filterMap ofToken?)) ∧
      ∀ tokens, tokenize definition = .ok tokens → Dyck (tokens.filterMap ofToken?) := by
  have matching : ∀ tokens, Scans definition.toList tokens [] → Dyck (tokens.filterMap ofToken?) := by
    intro tokens h
    rw [h.brackets]
    exact unmatched?_eq_none_iff_dyck.1 h.matched
  refine ⟨unmatched?_eq_none_iff_dyck, fun place h => ?_, matching,
    fun tokens h => matching tokens (scans_of_tokensOf h)⟩
  rw [← String.length_toList]
  exact stops_of_unmatched? h

/-- Brackets behind one that lacks a partner are not looked at. A sum whose last operand is missing has tokens whose
brackets match. -/
theorem unmatched?_decides_dyck_sum :
    Brackets.unmatched? "(x)-1)*(2".toList = some 5 ∧ Stops "(x)-1)*(2".toList 5 ∧
      Scans "(x)+".toList [Kind.leftParen.token, .operand .x, Kind.rightParen.token, Kind.add.token] [] ∧
      Dyck ([Kind.leftParen.token, .operand .x, Kind.rightParen.token, Kind.add.token].filterMap ofToken?) := by
  have scan : Brackets.unmatched? "(x)-1)*(2".toList = some 5 := by decide
  have scans : Scans "(x)+".toList [Kind.leftParen.token, .operand .x, Kind.rightParen.token, Kind.add.token] [] :=
    ⟨by decide, by decide, _, (List.append_nil _).symm, by decide +kernel⟩
  exact ⟨scan, ((unmatched?_decides_dyck "(x)-1)*(2").2.1 5 scan).2, scans,
    (unmatched?_decides_dyck "(x)+").2.2.1 _ scans⟩

end Formula
