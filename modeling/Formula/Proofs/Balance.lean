import Formula.Definition.Brackets
import Mathlib
/-!
# Balanced texts

A text is balanced if no part from its beginning has more closing than opening brackets and the whole text has as many
of both. The scan that a text passes before it is read finds nothing iff the text is balanced
(`unmatched?_eq_none_iff`). Otherwise it finds the first closing bracket that is one too many, or the last character if
there is none and a bracket stays open (`unmatched_of_scan`).
-/

namespace Formula

/-- From its beginning on, a text closes no more brackets than are open, of which there are some before it. -/
def Covered (before : Nat) (text : List Char) : Prop :=
  ∀ part, part <+: text → part.count ')' ≤ before + part.count '('

structure Balanced (text : List Char) : Prop where
  covered : Covered 0 text
  settled : text.count ')' = text.count '('

/-- The brackets of a text that is balanced concern no other text. -/
theorem Balanced.append {first second : List Char} (hf : Balanced first) (hs : Balanced second) :
    Balanced (first ++ second) := by
  refine ⟨fun part hp => ?_, by rw [List.count_append, List.count_append, hf.settled, hs.settled]⟩
  rcases List.prefix_or_prefix_of_prefix hp (List.prefix_append first second) with inside | ⟨part, rfl⟩
  · exact hf.covered part inside
  · have := hs.covered part ((List.prefix_append_right_inj first).1 hp)
    rw [List.count_append, List.count_append, hf.settled]
    omega

namespace Brackets

/-- The brackets of a text that begins at a position fail at a place: at a closing bracket that is one too many, or at
the last character if some stay open. -/
inductive Unmatched (before position : Nat) : List Char → Nat → Prop
  | closing {front rest : List Char} (covered : Covered before front)
      (settled : front.count ')' = before + front.count '(') :
      Unmatched before position (front ++ ')' :: rest) (position + front.length)
  | opening {text : List Char} (covered : Covered before text) (left : text.count ')' < before + text.count '(') :
      Unmatched before position text (position + text.length - 1)

theorem covered_nil (before : Nat) : Covered before [] := by
  intro part hp
  rw [List.prefix_nil.1 hp]
  exact Nat.zero_le _

theorem not_covered_closing {text : List Char} : ¬ Covered 0 (')' :: text) := by
  intro h
  have := h [')'] ⟨text, rfl⟩
  simp at this

/-! ## One character -/

section Cons

variable {before before' : Nat} {c : Char} {text : List Char}

theorem count_cons_eq (d c : Char) (text : List Char) : (c :: text).count d = [c].count d + text.count d :=
  @List.count_append _ _ d [c] text

variable (hc : before' + [c].count ')' = before + [c].count '(')

include hc

/-- A character changes the number of open brackets, which is all that the rest of a text depends on. -/
theorem covered_cons_iff : Covered before (c :: text) ↔ Covered before' text := by
  constructor
  · intro h part hp
    have := h (c :: part) (List.cons_prefix_cons.2 ⟨rfl, hp⟩)
    rw [count_cons_eq, count_cons_eq '(' c] at this
    omega
  · intro h part hp
    cases part with
    | nil => exact Nat.zero_le _
    | cons d part =>
      obtain ⟨rfl, ht⟩ := List.cons_prefix_cons.1 hp
      have := h part ht
      rw [count_cons_eq, count_cons_eq '(' d]
      omega

theorem settled_cons_iff :
    (c :: text).count ')' = before + (c :: text).count '(' ↔ text.count ')' = before' + text.count '(' := by
  rw [count_cons_eq, count_cons_eq '(' c]
  omega

theorem Unmatched.cons {position place : Nat} (h : Unmatched before' (position + 1) text place) :
    Unmatched before position (c :: text) place := by
  cases h with
  | @closing front rest covered settled =>
    have shifted : position + 1 + front.length = position + (c :: front).length := by
      rw [List.length_cons]
      omega
    rw [shifted]
    exact .closing ((covered_cons_iff hc).2 covered) ((settled_cons_iff hc).2 settled)
  | opening covered left =>
    have shifted : position + 1 + text.length - 1 = position + (c :: text).length - 1 := by
      rw [List.length_cons]
      omega
    rw [shifted]
    refine .opening ((covered_cons_iff hc).2 covered) ?_
    rw [count_cons_eq, count_cons_eq '(' c]
    omega

end Cons

/-! ## The scan -/

theorem counted_closing {depth : Nat} (h : depth ≠ 0) : depth - 1 + [')'].count ')' = depth + [')'].count '(' :=
  Nat.sub_add_cancel (Nat.pos_of_ne_zero h)

theorem counted_other {depth : Nat} {c : Char} (opening : c ≠ '(') (closing : c ≠ ')') :
    depth + [c].count ')' = depth + [c].count '(' := by
  simp [opening, closing]

/-- The scan finds nothing iff no bracket is closed that is not open, and none stays open. -/
theorem unmatchedFrom?_eq_none_iff_count {depth position : Nat} {text : List Char} :
    unmatchedFrom? depth position text = none ↔ Covered depth text ∧ text.count ')' = depth + text.count '(' := by
  fun_induction unmatchedFrom? depth position text with
  | case1 position => exact ⟨fun _ => ⟨covered_nil 0, rfl⟩, fun _ => rfl⟩
  | case2 depth position hd =>
    simp only [List.count_nil, reduceCtorEq, false_iff, not_and]
    exact fun _ => by omega
  | case3 depth position rest ih => rw [ih, covered_cons_iff rfl, settled_cons_iff rfl]
  | case4 position rest => simp [not_covered_closing]
  | case5 depth position rest hd ih =>
    rw [ih, covered_cons_iff (counted_closing hd), settled_cons_iff (counted_closing hd)]
  | case6 depth position c rest opening closing ih =>
    rw [ih, covered_cons_iff (counted_other opening closing), settled_cons_iff (counted_other opening closing)]

theorem unmatched?_eq_none_iff {text : List Char} : unmatched? text = none ↔ Balanced text := by
  rw [unmatched?, unmatchedFrom?_eq_none_iff_count, Nat.zero_add]
  exact ⟨fun ⟨covered, settled⟩ => ⟨covered, settled⟩, fun ⟨covered, settled⟩ => ⟨covered, settled⟩⟩

theorem unmatched_of_scan {depth position place : Nat} {text : List Char}
    (h : unmatchedFrom? depth position text = some place) : Unmatched depth position text place := by
  fun_induction unmatchedFrom? depth position text with
  | case1 position => cases h
  | case2 depth position hd =>
    obtain rfl := Option.some.inj h
    exact .opening (covered_nil depth) (by rw [List.count_nil, List.count_nil]; omega)
  | case3 depth position rest ih => exact (ih h).cons rfl
  | case4 position rest =>
    obtain rfl := Option.some.inj h
    exact @Unmatched.closing 0 position [] rest (covered_nil 0) rfl
  | case5 depth position rest hd ih =>
    exact (ih h).cons (counted_closing hd)
  | case6 depth position c rest opening closing ih =>
    exact (ih h).cons (counted_other opening closing)

end Brackets

end Formula
