import Formula.Definition.Brackets
import Formula.Proofs.Grammar
import Formula.Proofs.Lexing
/-!
# Brackets of a text and of its tokens

A text and the row of its tokens have the same brackets (`Cuts.brackets`), so the scan that a text passes before it
is read (`unmatched?`) says that the brackets of its tokens match.
-/

namespace Formula

inductive Bracket
  | opening | closing
deriving DecidableEq

namespace Bracket

def ofChar? (c : Char) : Option Bracket :=
  if c = '(' then some .opening else if c = ')' then some .closing else none

def ofToken? (token : Token) : Option Bracket :=
  match token.kind? with
  | some .leftParen => some .opening
  | some .rightParen => some .closing
  | _ => none

/-- The number of brackets open after some brackets, with `depth` open before them; none if a closing bracket has no
partner. -/
def nesting (depth : Nat) : List Bracket → Option Nat
  | [] => some depth
  | .opening :: rest => nesting (depth + 1) rest
  | .closing :: rest => if depth = 0 then none else nesting (depth - 1) rest

theorem nesting_append (depth : Nat) (first second : List Bracket) :
    nesting depth (first ++ second) = (nesting depth first).bind (nesting · second) := by
  induction first generalizing depth with
  | nil => rfl
  | cons bracket first ih =>
    cases bracket with
    | opening => exact ih (depth + 1)
    | closing =>
      by_cases hd : depth = 0
      · simp [nesting, hd]
      · simp only [List.cons_append, nesting, hd, if_false]
        exact ih (depth - 1)

/-- Brackets after which `depth` are open leave the rest as if it began there. -/
theorem nesting_append_of_eq {depth depth' : Nat} {first : List Bracket} (h : nesting depth first = some depth')
    (second : List Bracket) : nesting depth (first ++ second) = nesting depth' second := by
  rw [nesting_append, h]
  rfl

end Bracket

open Formula.Bracket

/-- The scan finds no fault iff no closing bracket lacks a partner and none stays open. -/
theorem unmatchedFrom?_eq_none_iff {depth position : Nat} {text : List Char} :
    Brackets.unmatchedFrom? depth position text = none ↔ nesting depth (text.filterMap ofChar?) = some 0 := by
  induction text generalizing depth position with
  | nil => by_cases hd : depth = 0 <;> simp [Brackets.unmatchedFrom?, nesting, hd]
  | cons c text ih =>
    unfold Brackets.unmatchedFrom?
    split
    · next heq => cases heq
    · next heq => cases heq; exact ih
    · next heq =>
      cases heq
      by_cases hd : depth = 0
      · simp [ofChar?, nesting, hd]
      · simp only [hd, if_false, ih, ofChar?, List.filterMap_cons, nesting, Char.reduceEq, if_true]
    · next hopen hclose heq =>
      cases heq
      have hc : ofChar? c = none := by
        have h1 : c ≠ '(' := by rintro rfl; exact hopen rfl
        have h2 : c ≠ ')' := by rintro rfl; exact hclose rfl
        simp [ofChar?, h1, h2]
      rw [List.filterMap_cons_none hc]
      exact ih

namespace Lexeme

theorem ofChar?_of_isAlpha (c : Char) (h : c.isAlpha) : ofChar? c = none := by
  have h1 : c ≠ '(' := by rintro rfl; cases h
  have h2 : c ≠ ')' := by rintro rfl; cases h
  simp [ofChar?, h1, h2]

theorem ofChar?_of_isNumeral {c : Char} (h : isNumeral c) : ofChar? c = none := by
  have h1 : c ≠ '(' := by rintro rfl; cases h
  have h2 : c ≠ ')' := by rintro rfl; cases h
  simp [ofChar?, h1, h2]

theorem ofChar?_of_isBlank {c : Char} (h : Text.isBlank c) : ofChar? c = none := by
  have h1 : c ≠ '(' := by rintro rfl; revert h; decide
  have h2 : c ≠ ')' := by rintro rfl; revert h; decide
  simp [ofChar?, h1, h2]

/-- A lexeme is written with a bracket iff its token is that bracket. -/
theorem Reads.brackets {chars rest : List Char} {token : Token} (h : Reads chars rest token) :
    chars.filterMap ofChar? = [token].filterMap ofToken? := by
  cases h with
  | number numerals _ _ _ =>
    rw [List.filterMap_eq_nil_iff.2 fun c hc => ofChar?_of_isNumeral (List.all_eq_true.1 numerals c hc)]
    rfl
  | spelled member spelling _ =>
    have hcat : ∀ token ∈ Token.catalog, token.spelling.toList.filterMap ofChar? = [token].filterMap ofToken? := by
      decide
    rw [← hcat token member, ← spelling, List.filterMap_map]
    exact List.filterMap_congr fun c _ => (apply_toLower ofChar?_of_isAlpha c).symm

theorem Cuts.brackets {text : List Char} {tokens : List Token} (h : Cuts text tokens) :
    text.filterMap ofChar? = tokens.filterMap ofToken? := by
  induction h with
  | nil => rfl
  | blank hb _ ih => rw [List.filterMap_cons_none (ofChar?_of_isBlank hb), ih]
  | @lexeme chars rest token tokens reads _ ih =>
    rw [List.filterMap_append, reads.brackets, ih, ← List.filterMap_append]
    rfl

/-- A text passes the scan iff the brackets of its tokens match. -/
theorem Cuts.unmatched?_eq_none_iff {text : List Char} {tokens : List Token} (h : Cuts text tokens) :
    Brackets.unmatched? text = none ↔ nesting 0 (tokens.filterMap ofToken?) = some 0 := by
  rw [← h.brackets]
  exact unmatchedFrom?_eq_none_iff

end Lexeme

/-! ## Texts around a symbol -/

namespace Kind

/-- What definitions write as a single character that is no letter. -/
def isSymbol (kind : Kind) : Bool :=
  kind.isInfix || kind.isGrouping

theorem token_mem_catalog {kind : Kind} (h : kind ≠ .negate) : kind.token ∈ Token.catalog := by
  revert h
  cases kind <;> decide

theorem spelling_of_isSymbol {kind : Kind} (h : kind.isSymbol) :
    kind.token ∈ Token.catalog ∧ kind.spelling.length = 1 ∧ kind.spelling.toList.head?.any Lexeme.breaks := by
  revert h
  cases kind <;> decide

end Kind

namespace Lexeme

theorem reads_symbol (kind : Kind) (h : kind.isSymbol) (rest : List Char) :
    Reads kind.spelling.toList rest kind.token :=
  have ⟨member, single, _⟩ := Kind.spelling_of_isSymbol h
  reads_single member single rest

theorem breaks_symbol (kind : Kind) (h : kind.isSymbol) (rest : List Char) :
    (kind.spelling.toList ++ rest).head?.all breaks := by
  obtain ⟨-, -, hb⟩ := Kind.spelling_of_isSymbol h
  cases hs : kind.spelling.toList with
  | nil => rw [hs] at hb; cases hb
  | cons c chars => simpa [hs] using hb

/-- Two texts with a symbol between them are cut on their own. -/
theorem Cuts.joined {text text' : List Char} {tokens tokens' : List Token} (h : Cuts text tokens) (kind : Kind)
    (symbol : kind.isSymbol) (h' : Cuts text' tokens') :
    Cuts (text ++ (kind.spelling.toList ++ text')) (tokens ++ kind.token :: tokens') :=
  h.append (breaks_symbol kind symbol text') (.lexeme (reads_symbol kind symbol text') h')

/-- A text in brackets is cut on its own, whatever follows the brackets. -/
theorem Cuts.enclosed {text rest : List Char} {tokens tokens' : List Token} (h : Cuts text tokens)
    (hrest : Cuts rest tokens') :
    Cuts ('(' :: (text ++ ')' :: rest)) (Kind.leftParen.token :: (tokens ++ Kind.rightParen.token :: tokens')) :=
  .lexeme (reads_symbol .leftParen rfl _) (h.joined .rightParen rfl hrest)

end Lexeme

end Formula
