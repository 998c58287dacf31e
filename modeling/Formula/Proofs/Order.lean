import Formula.Proofs.Doubles
import Mathlib.Order.WithBot
/-!
# The order of doubles

A double that is a number has a place among the rational numbers, or beyond all of them (`place`). The comparisons of
doubles are those of their places (`le_iff_place_le`, `beq_iff_place_eq`), so zeros of both signs are equal, and
whatever is no number is left out.
-/

namespace Formula.Number

open Float.Model (UnpackedFloat)
open Float.Model.UnpackedFloat

/-- The place of a double in the order. One that is no number has none, and is put at 0. -/
def unpackedPlace : UnpackedFloat → WithBot (WithTop ℚ)
  | .infinity .positive => ⊤
  | .infinity .negative => ⊥
  | f => ((unpackedValue f : WithTop ℚ) : WithBot (WithTop ℚ))

def place (x : Float) : WithBot (WithTop ℚ) :=
  unpackedPlace x.toModel.unpack

/-! ## Forms -/

/-- What a double that is a number is unpacked to. -/
inductive NumberForm : UnpackedFloat → Prop
  | infinity (sign : Sign) : NumberForm (.infinity sign)
  | finite {f : UnpackedFloat} (form : FiniteForm f) : NumberForm f

theorem numberForm {x : Float} (h : x.isNaN = false) : NumberForm x.toModel.unpack := by
  change x.toModel.unpack.isNaN = false at h
  cases hu : x.toModel.unpack with
  | notANumber =>
    rw [hu] at h
    cases h
  | infinity sign => exact .infinity sign
  | zero sign => exact .finite (.zero sign)
  | finite sign m e hm => exact .finite (.finite sign hm (canonical_of_unpack hu))

theorem isNaN_of_isFinite {x : Float} (h : x.isFinite) : x.isNaN = false := by
  change x.toModel.unpack.isFinite = true at h
  change x.toModel.unpack.isNaN = false
  cases hu : x.toModel.unpack with
  | notANumber | infinity =>
    rw [hu] at h
    cases h
  | zero | finite => rfl

theorem isFinite_eq (x : Float) : x.isFinite = !(x.isNaN || x.isInf) := by
  change x.toModel.unpack.isFinite = !(x.toModel.unpack.isNaN || x.toModel.unpack.isInf)
  cases x.toModel.unpack <;> rfl

theorem FiniteForm.unpackedPlace_eq {f : UnpackedFloat} (h : FiniteForm f) :
    unpackedPlace f = ((unpackedValue f : WithTop ℚ) : WithBot (WithTop ℚ)) := by
  cases h <;> rfl

/-! ## Comparison -/

theorem swap_compare (f g : UnpackedFloat) : (f.compare g).map Ordering.swap = g.compare f := by
  cases f with
  | notANumber => cases g <;> rfl
  | infinity s => cases s <;> cases g with
    | notANumber | zero | finite => rfl
    | infinity t => cases t <;> rfl
  | zero s => cases g with
    | notANumber | zero => rfl
    | infinity t | finite t => cases t <;> rfl
  | finite s m e =>
    cases s <;> cases g with
    | notANumber | zero => rfl
    | infinity t => cases t <;> rfl
    | finite t n k =>
      cases t <;> simp [UnpackedFloat.compare, Ordering.swap_then, Int.compare_swap, Nat.compare_swap]

theorem FiniteForm.value_eq {f g : UnpackedFloat} (hf : FiniteForm f) (hg : FiniteForm g)
    (h : f.compare g = some .eq) : unpackedValue f = unpackedValue g := by
  cases hf with
  | zero s =>
    cases hg with
    | zero t => rfl
    | @finite t n k hn _ => cases t <;> cases h
  | @finite s m e hm cf =>
    cases hg with
    | zero t => cases s <;> cases h
    | @finite t n k hn cg =>
      have same : (compare e k).then (compare m n) = .eq → e = k ∧ m = n := by
        rw [Ordering.then_eq_eq]
        exact fun h => ⟨compare_eq_iff_eq.1 h.1, compare_eq_iff_eq.1 h.2⟩
      cases s <;> cases t
      · obtain ⟨rfl, rfl⟩ := same (by simpa [UnpackedFloat.compare] using h)
        rfl
      · cases h
      · cases h
      · obtain ⟨rfl, rfl⟩ := same (Option.some.inj h)
        rfl

theorem FiniteForm.compare_infinity {f : UnpackedFloat} (h : FiniteForm f) :
    f.compare (.infinity .positive) = some .lt ∧ f.compare (.infinity .negative) = some .gt := by
  cases h with
  | zero => exact ⟨rfl, rfl⟩
  | finite sign => cases sign <;> exact ⟨rfl, rfl⟩

theorem FiniteForm.compares {f g : UnpackedFloat} (hf : FiniteForm f) (hg : FiniteForm g) :
    ∃ order : Ordering, f.compare g = some order ∧ order.Compares (unpackedPlace f) (unpackedPlace g) := by
  rw [hf.unpackedPlace_eq, hg.unpackedPlace_eq]
  cases h : f.compare g with
  | none =>
    cases hf with
    | zero => cases hg with
      | zero => cases h
      | finite t => cases t <;> cases h
    | finite s => cases hg with
      | zero => cases s <;> cases h
      | finite t => cases s <;> cases t <;> cases h
  | some order =>
    refine ⟨order, rfl, ?_⟩
    cases order with
    | lt => exact WithBot.coe_lt_coe.2 (WithTop.coe_lt_coe.2 (hf.value_lt hg h))
    | eq => exact congrArg _ (congrArg _ (hf.value_eq hg h))
    | gt =>
      have swapped : g.compare f = some .lt := by
        rw [← swap_compare, h]
        rfl
      exact WithBot.coe_lt_coe.2 (WithTop.coe_lt_coe.2 (hg.value_lt hf swapped))

/-- Doubles are compared as their places. -/
theorem NumberForm.compares {f g : UnpackedFloat} (hf : NumberForm f) (hg : NumberForm g) :
    ∃ order : Ordering, f.compare g = some order ∧ order.Compares (unpackedPlace f) (unpackedPlace g) := by
  have above (q : ℚ) : ((q : WithTop ℚ) : WithBot (WithTop ℚ)) < ⊤ := WithBot.coe_lt_coe.2 (WithTop.coe_lt_top q)
  have below (q : ℚ) : ⊥ < ((q : WithTop ℚ) : WithBot (WithTop ℚ)) := WithBot.bot_lt_coe _
  cases hf with
  | infinity s =>
    cases hg with
    | infinity t =>
      cases s <;> cases t
      · exact ⟨.eq, rfl, rfl⟩
      · exact ⟨.lt, rfl, bot_lt_top⟩
      · exact ⟨.gt, rfl, bot_lt_top⟩
      · exact ⟨.eq, rfl, rfl⟩
    | finite form =>
      rw [← swap_compare, form.unpackedPlace_eq]
      cases s with
      | positive => exact ⟨.gt, by rw [form.compare_infinity.1]; rfl, above _⟩
      | negative => exact ⟨.lt, by rw [form.compare_infinity.2]; rfl, below _⟩
  | finite form =>
    cases hg with
    | infinity t =>
      rw [form.unpackedPlace_eq]
      cases t with
      | positive => exact ⟨.lt, form.compare_infinity.1, above _⟩
      | negative => exact ⟨.gt, form.compare_infinity.2, below _⟩
    | finite other => exact form.compares other

variable {x y : Float}

theorem le_iff : x ≤ y ↔ (x.toModel.unpack.compare y.toModel.unpack).any (·.isLE) = true :=
  decide_eq_true_iff

theorem le_iff_place_le (hx : x.isNaN = false) (hy : y.isNaN = false) : x ≤ y ↔ place x ≤ place y := by
  obtain ⟨order, compared, compares⟩ := (numberForm hx).compares (numberForm hy)
  rw [le_iff, compared, Option.any_some, Ordering.isLE_iff_ne_gt]
  exact compares.ne_gt

theorem beq_iff_place_eq (hx : x.isNaN = false) (hy : y.isNaN = false) : (x == y) = true ↔ place x = place y := by
  obtain ⟨order, compared, compares⟩ := (numberForm hx).compares (numberForm hy)
  change (x.toModel.unpack.compare y.toModel.unpack == some .eq) = true ↔ _
  rw [compared, beq_iff_eq, Option.some_inj, compares.eq_eq]
  rfl

/-- What is no number is left out of the order. -/
theorem not_le_of_isNaN (h : x.isNaN ∨ y.isNaN) : ¬x ≤ y := by
  have incomparable : x.toModel.unpack.isNaN = true ∨ y.toModel.unpack.isNaN = true := h
  rw [le_iff]
  cases hx : x.toModel.unpack with
  | notANumber => simp [UnpackedFloat.compare]
  | infinity | zero | finite =>
    cases hy : y.toModel.unpack with
    | notANumber => simp [UnpackedFloat.compare]
    | infinity | zero | finite =>
      rw [hx, hy] at incomparable
      rcases incomparable with impossible | impossible <;> cases impossible

end Formula.Number
