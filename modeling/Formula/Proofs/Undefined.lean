import Formula.Proofs.Lexing
/-!
# The undefined value

There is one double that is no number (`eq_undefined`). Packing a double keeps it apart from all others
(`isNaN_ofModel_pack`), and rounding never makes it, so what a definition writes as a number is never undefined
(`isNaN_ofDecimal`).
-/

namespace Formula.Number

open Float.Model (UnpackedFloat Format)
open Float.Model.UnpackedFloat

/-! ## Packed doubles -/

theorem undefined_eq_nan : undefined = Float.nan := rfl

theorem isNaN_undefined : undefined.isNaN := by
  rw [Float.isNaN_eq_decide_eq_nan, undefined_eq_nan, decide_eq_true_eq]

/-- Every double that is no number is the undefined value. -/
theorem eq_undefined {x : Float} (h : x.isNaN) : x = undefined := by
  rwa [Float.isNaN_eq_decide_eq_nan, decide_eq_true_eq, ← undefined_eq_nan] at h

theorem packedInfinity_ne_packedNaN (sign : Sign) : packedInfinity .binary64 sign ≠ packedNaN .binary64 := by
  intro h
  have := congrArg unpackMantissa h
  simp only [packedInfinity, packedNaN, unpackMantissa_packComponents] at this
  exact absurd this (by decide)

/-- An exponent that fits is not that of the packed value that is no number. -/
theorem packComponents_ne_packedNaN (sign : Sign) {exponent : Nat} (h : exponent + 1 < 2 ^ 11) (mantissa : BitVec 52) :
    packComponents .binary64 sign (BitVec.ofNat 11 exponent) mantissa ≠ packedNaN .binary64 := by
  intro heq
  have := congrArg (fun bits => (unpackExponent bits).toNat) heq
  simp only [packedNaN, unpackExponent_packComponents, BitVec.toNat_ofNat] at this
  rw [Nat.mod_eq_of_lt (by omega)] at this
  have hgreatest : (-1#11).toNat = 2 ^ 11 - 1 := by decide
  rw [hgreatest] at this
  omega

theorem pack_eq_packedNaN_iff (f : UnpackedFloat) : pack .binary64 f = packedNaN .binary64 ↔ f = .notANumber := by
  refine ⟨fun h => ?_, by rintro rfl; rfl⟩
  cases f with
  | notANumber => rfl
  | infinity sign => exact absurd h (packedInfinity_ne_packedNaN sign)
  | zero sign => exact absurd h (packComponents_ne_packedNaN sign (by decide) _)
  | finite sign m e hm =>
    unfold pack at h
    dsimp only at h
    split at h
    · exact absurd h (packedInfinity_ne_packedNaN sign)
    · next hsmall =>
      split at h
      · exact absurd h (packComponents_ne_packedNaN sign (Nat.lt_of_not_le hsmall) _)
      · exact absurd h (packComponents_ne_packedNaN sign (by decide) _)

/-- Packing keeps what is no number apart from all others. -/
theorem isNaN_ofModel_pack (f : UnpackedFloat) : (Float.ofModel (.pack f)).isNaN = f.isNaN := by
  rw [Bool.eq_iff_iff, isNaN_iff, ← pack_eq_packedNaN_iff]
  exact isNaN_unpack_iff_of_valid valid_pack

/-! ## Rounding -/

theorem isNaN_roundWithAccuracy (sign : Sign) (m : Nat) (e : Int) (accuracy : Accuracy) :
    (roundWithAccuracy .binary64 sign m e accuracy).isNaN = false := by
  unfold roundWithAccuracy
  dsimp only
  split <;> rfl

theorem isNaN_mul_finite (f : UnpackedFloat) (sign : Sign) (m : Nat) (e : Int) (hm : 0 < m) :
    (mul .binary64 f (.finite sign m e hm)).isNaN = f.isNaN := by
  cases f with
  | notANumber | infinity | zero => rfl
  | finite => exact isNaN_roundWithAccuracy ..

theorem isNaN_div_finite (f : UnpackedFloat) (sign : Sign) (m : Nat) (e : Int) (hm : 0 < m) :
    (div .binary64 f (.finite sign m e hm)).isNaN = f.isNaN := by
  cases f with
  | notANumber | infinity | zero => rfl
  | finite => exact isNaN_roundWithAccuracy ..

/-! ## What a definition writes -/

theorem isNaN_ofNat (n : Nat) : (UnpackedFloat.ofNat .binary64 n).isNaN = false := by
  unfold UnpackedFloat.ofNat UnpackedFloat.ofInt UnpackedFloat.normalize
  split
  · exact isNaN_roundWithAccuracy ..
  · rfl
  · exact isNaN_roundWithAccuracy ..

theorem isNaN_unpackedOfScientific (m : Nat) (e : Int) :
    (UnpackedFloat.ofScientific .binary64 m e).isNaN = false := by
  unfold UnpackedFloat.ofScientific
  split
  · rfl
  · split
    · rfl
    · split
      · rfl
      · split
        · exact isNaN_mul_finite ..
        · exact isNaN_div_finite ..

def isFiniteNonzero : UnpackedFloat → Bool
  | .finite .. => true
  | _ => false

theorem unpack_powerOfTen {power : Float} (h : power ∈ Float.exactlyRepresentablePowersOfTen) :
    ∃ sign m e hm, power.toModel.unpack = .finite sign m e hm := by
  have hall : ∀ power ∈ Float.exactlyRepresentablePowersOfTen.toList, isFiniteNonzero power.toModel.unpack := by
    decide
  have := hall power (Array.mem_toList_iff.2 h)
  cases hu : power.toModel.unpack with
  | finite sign m e hm => exact ⟨sign, m, e, hm, rfl⟩
  | notANumber | infinity | zero => rw [hu] at this; cases this

theorem isNaN_mul_powerOfTen (n : UInt64) {power : Float} (h : power ∈ Float.exactlyRepresentablePowersOfTen) :
    (n.toFloat * power).isNaN = false := by
  obtain ⟨sign, m, e, hm, hpower⟩ := unpack_powerOfTen h
  change (Float.ofModel (.pack (mul .binary64 n.toFloat.toModel.unpack power.toModel.unpack))).isNaN = false
  rw [isNaN_ofModel_pack, hpower, isNaN_mul_finite]
  exact (isNaN_ofModel_pack _).trans (isNaN_ofNat _)

theorem isNaN_div_powerOfTen (n : UInt64) {power : Float} (h : power ∈ Float.exactlyRepresentablePowersOfTen) :
    (n.toFloat / power).isNaN = false := by
  obtain ⟨sign, m, e, hm, hpower⟩ := unpack_powerOfTen h
  change (Float.ofModel (.pack (div .binary64 n.toFloat.toModel.unpack power.toModel.unpack))).isNaN = false
  rw [isNaN_ofModel_pack, hpower, isNaN_div_finite]
  exact (isNaN_ofModel_pack _).trans (isNaN_ofNat _)

/-- A decimal is a number, as large as it may be. -/
theorem isNaN_ofScientific (m : Nat) (negative : Bool) (e : Nat) :
    (Float.ofScientific m negative e).isNaN = false := by
  unfold Float.ofScientific
  split
  · cases negative with
    | true => exact isNaN_div_powerOfTen _ (Array.getElem_mem _)
    | false => exact isNaN_mul_powerOfTen _ (Array.getElem_mem _)
  · exact (isNaN_ofModel_pack _).trans (isNaN_unpackedOfScientific ..)

theorem isNaN_ofDecimal (whole part : List Char) (exponent : Int) : (ofDecimal whole part exponent).isNaN = false :=
  isNaN_ofScientific ..

end Formula.Number

namespace Formula

/-- An operand is a number wherever the variable is one. -/
def Operand.IsDefined (leaf : Operand) : Prop :=
  ∀ x : Float, x.isNaN = false → (leaf.valueAt x).isNaN = false

/-- Every operand of a definition is a number where the variable is one. -/
theorem Lexeme.Reads.isDefined {chars rest : List Char} {leaf : Operand}
    (h : Lexeme.Reads chars rest (.operand leaf)) : leaf.IsDefined := by
  intro x hx
  cases h with
  | number => exact Number.isNaN_ofDecimal ..
  | spelled member _ _ =>
    have hcat : leaf = .x ∨ leaf = .pi := by simpa [Token.catalog] using member
    rcases hcat with rfl | rfl
    · exact hx
    · change Float.isNaN 3.141592653589793 = false
      decide

end Formula
