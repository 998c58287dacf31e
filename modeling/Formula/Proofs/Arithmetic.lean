import Formula.Proofs.Rounding
/-!
# Arithmetic

What an operation on finite doubles gives is as near to the exact number as doubles can be, and is finite if that number
is not above the greatest double (`Rounded`). Rounding is off by half a unit (`Near.abs_sub_le`). A result that is a
whole number of the least units has no error but that of its 53 bits (`Near.close_of_multiple`), which is so for sums
and for whole multiples of a double.
-/

namespace Formula.Number

open Float.Model (UnpackedFloat Format)
open Float.Model.UnpackedFloat

/-! ## Errors -/

/-- The number that the greatest finite double stands for. -/
def greatest : ℚ :=
  (2 ^ 53 - 1) * 2 ^ (971 : ℤ)

theorem greatest_pos : 0 < greatest :=
  mul_pos (by norm_num) (zpow_pos two_pos 971)

theorem greatest_lt : greatest < 2 ^ (1024 : ℤ) := by
  have split : (2 : ℚ) ^ (1024 : ℤ) = 2 ^ 53 * 2 ^ (971 : ℤ) := by
    rw [← zpow_natCast, ← zpow_add₀ two_ne_zero]
    rfl
  rw [split]
  exact mul_lt_mul_of_pos_right (by norm_num) (zpow_pos two_pos 971)

theorem Nearest.magnitude_le {q : ℚ} {n bound : ℤ} (h : Nearest q n) (bounded : |q| ≤ bound) : |n| ≤ bound := by
  obtain ⟨below, above⟩ := abs_le.1 bounded
  exact abs_le.2 ⟨h.ge (by push_cast; exact below), h.le above⟩

/-- The greatest double is a multiple of every unit that is not above its own. -/
theorem exists_greatest_eq {unit : ℤ} (h : unit ≤ 971) : ∃ whole : ℤ, greatest = whole * 2 ^ unit := by
  obtain ⟨k, hk⟩ := Int.eq_ofNat_of_zero_le (sub_nonneg.2 h)
  obtain rfl : unit = 971 - k := by omega
  have split : (2 : ℚ) ^ (971 : ℤ) = 2 ^ k * 2 ^ (971 - k : ℤ) := by
    rw [← zpow_natCast, ← zpow_add₀ two_ne_zero, add_sub_cancel]
  refine ⟨(2 ^ 53 - 1) * 2 ^ k, ?_⟩
  rw [greatest, split]
  push_cast
  ring

theorem Nearest.abs_sub_le {q : ℚ} {n : ℤ} (unit : ℤ) (h : Nearest (q / 2 ^ unit) n) :
    |n * 2 ^ unit - q| ≤ 2 ^ unit / 2 := by
  have size : (0 : ℚ) < 2 ^ unit := zpow_pos two_pos unit
  have scaled : n * 2 ^ unit - q = -((q / 2 ^ unit - n) * 2 ^ unit) := by
    field_simp
    ring
  rw [scaled, abs_neg, abs_mul, abs_of_pos size]
  linarith [mul_le_mul_of_nonneg_right h.close size.le]

theorem half_unit_le {q : ℚ} {unit : ℤ} (small : 2 ^ (unit + 52) ≤ |q|) : (2 : ℚ) ^ unit / 2 ≤ |q| / 2 ^ 53 := by
  rw [zpow_add₀ two_ne_zero, zpow_ofNat] at small
  linarith

section

variable {v q : ℚ} (h : Near v q)

include h

/-- A number that is not above the greatest double is not rounded to one that is. -/
theorem Near.abs_le_greatest (bounded : |q| ≤ greatest) : |v| ≤ greatest := by
  obtain ⟨unit, least, small, n, nearest, rfl⟩ := h
  have size : (0 : ℚ) < 2 ^ unit := zpow_pos two_pos unit
  have fits : unit ≤ 971 := by
    rcases small with rfl | small
    · decide
    · have := (zpow_lt_zpow_iff_right₀ one_lt_two).1 (lt_of_le_of_lt (small.trans bounded) greatest_lt)
      omega
  obtain ⟨whole, multiple⟩ := exists_greatest_eq fits
  rw [multiple] at bounded ⊢
  have scaled : |q / 2 ^ unit| ≤ whole := by rwa [abs_div, abs_of_pos size, div_le_iff₀ size]
  rw [abs_mul, abs_of_pos size]
  exact mul_le_mul_of_nonneg_right (by exact_mod_cast nearest.magnitude_le scaled) size.le

/-- Rounding is off by half a unit, and so is of little weight unless the unit is the least one. -/
theorem Near.abs_sub_le : |v - q| ≤ |q| / 2 ^ 53 + 2 ^ (-1075 : ℤ) := by
  obtain ⟨unit, -, small, n, nearest, rfl⟩ := h
  have half := nearest.abs_sub_le unit
  rcases small with rfl | small
  · have least : (2 : ℚ) ^ (-1074 : ℤ) / 2 = 2 ^ (-1075 : ℤ) := by
      rw [div_eq_mul_inv, ← zpow_sub_one₀ two_ne_zero]
      rfl
    have : 0 ≤ |q| / 2 ^ 53 := by positivity
    linarith
  · have : (0 : ℚ) < 2 ^ (-1075 : ℤ) := zpow_pos two_pos _
    linarith [half_unit_le small]

/-- What is a whole number of units remains one, and is kept unless the units are small. -/
theorem Near.of_multiple {least n : ℤ} (bound : -1074 ≤ least) (multiple : q = n * 2 ^ least) :
    v = q ∨ 2 ^ (least + 53) ≤ |q| ∧ |v - q| ≤ |q| / 2 ^ 53 ∧ ∃ m : ℤ, v = m * 2 ^ least := by
  obtain ⟨unit, -, small, m, nearest, rfl⟩ := h
  rcases le_or_gt unit least with fine | coarse
  -- With units as fine as this the number is a whole number of them, and nothing is lost.
  · left
    obtain ⟨k, hk⟩ := Int.eq_ofNat_of_zero_le (sub_nonneg.2 fine)
    obtain rfl : least = k + unit := by omega
    have size : (2 : ℚ) ^ unit ≠ 0 := zpow_ne_zero unit two_ne_zero
    have whole : q / 2 ^ unit = (n * 2 ^ k : ℤ) := by
      rw [multiple, zpow_add₀ two_ne_zero, ← mul_assoc, mul_div_cancel_right₀ _ size, zpow_natCast]
      push_cast
      rfl
    rw [nearest.eq whole, ← whole, div_mul_cancel₀ _ size]
  · right
    have small := small.resolve_left (by omega)
    refine ⟨(zpow_le_zpow_right₀ one_le_two (by omega)).trans small,
      (nearest.abs_sub_le unit).trans (half_unit_le small), ?_⟩
    obtain ⟨k, hk⟩ := Int.eq_ofNat_of_zero_le (sub_nonneg.2 coarse.le)
    obtain rfl : unit = k + least := by omega
    refine ⟨m * 2 ^ k, ?_⟩
    rw [zpow_add₀ two_ne_zero, zpow_natCast]
    push_cast
    ring

/-- The error of a whole number of units is only that of the 53 bits. -/
theorem Near.close_of_multiple {least n : ℤ} (bound : -1074 ≤ least) (multiple : q = n * 2 ^ least) :
    |v - q| ≤ |q| / 2 ^ 53 ∧ ∃ m : ℤ, v = m * 2 ^ least := by
  rcases h.of_multiple bound multiple with exact | ⟨-, close, whole⟩
  · rw [exact, sub_self, abs_zero]
    exact ⟨by positivity, n, multiple⟩
  · exact ⟨close, whole⟩

end

/-! ## Doubles -/

theorem abs_unpackedValue_finite (sign : Sign) {m : Nat} (e : ℤ) (hm : 0 < m) :
    |unpackedValue (.finite sign m e hm)| = m * 2 ^ e := by
  have magnitude : |(m * 2 ^ e : ℚ)| = m * 2 ^ e := abs_of_pos (magnitude_pos hm e)
  cases sign with
  | positive => rw [unpackedValue_positive, magnitude]
  | negative => rw [unpackedValue_negative, abs_neg, magnitude]

/-- A double is the one that is nearest to a number. It is finite if the number is not too great. -/
structure Rounded (x : Float) (q : ℚ) : Prop where
  isFinite : |q| ≤ greatest → x.isFinite
  near : x.isFinite → Near (value x) q

theorem Rounds.rounded {f : UnpackedFloat} {q : ℚ} (h : Rounds f q) : Rounded (Float.ofModel (.pack f)) q := by
  obtain ⟨form, near⟩ := h
  have kept (same : unpack .binary64 (pack .binary64 f) = f) (finite : f.isFinite) :
      Rounded (Float.ofModel (.pack f)) q := by
    constructor
    · intro _
      change (unpack .binary64 (pack .binary64 f)).isFinite = true
      rw [same]
      exact finite
    · intro _
      change Near (unpackedValue (unpack .binary64 (pack .binary64 f))) q
      rw [same]
      exact near
  cases form with
  | zero sign => exact kept (unpack_pack_zero sign) rfl
  | @finite sign m e hm significand least full =>
    rcases le_or_gt e 971 with fits | exceeds
    · exact kept (unpack_pack sign hm ⟨significand, least, fits, full⟩) rfl
    · have infinite : (Float.ofModel (.pack (.finite sign m e hm))).isFinite = false := by
        change (unpack .binary64 (pack .binary64 _)).isFinite = false
        rw [pack_of_overflow sign hm exceeds, unpack_packedInfinity]
        rfl
      refine ⟨fun bounded => ?_, fun finite => absurd (infinite.symm.trans finite) Bool.false_ne_true⟩
      -- A full significand with such an exponent is above all doubles.
      have above : (2 : ℚ) ^ (1024 : ℤ) ≤ m * 2 ^ e := by
        have full : 2 ^ 52 ≤ m := full.resolve_right (by omega)
        have split : (2 : ℚ) ^ (1024 : ℤ) = 2 ^ 52 * 2 ^ (972 : ℤ) := by
          rw [← zpow_natCast, ← zpow_add₀ two_ne_zero]
          rfl
        rw [split]
        exact mul_le_mul (by exact_mod_cast full) (zpow_le_zpow_right₀ one_le_two (by omega)) (zpow_pos two_pos _).le
          m.cast_nonneg
      have below := near.abs_le_greatest bounded
      rw [abs_unpackedValue_finite] at below
      exact absurd (above.trans below) greatest_lt.not_ge

theorem FiniteForm.abs_le {f : UnpackedFloat} (h : FiniteForm f) : |unpackedValue f| ≤ greatest := by
  cases h with
  | zero => simpa [unpackedValue] using greatest_pos.le
  | @finite sign m e hm canonical =>
    rw [abs_unpackedValue_finite]
    have significand : (m : ℚ) ≤ 2 ^ 53 - 1 := by
      have less : m + 1 ≤ 2 ^ 53 := canonical.significand
      have less : (m : ℚ) + 1 ≤ 2 ^ 53 := by exact_mod_cast less
      linarith
    exact mul_le_mul significand (zpow_le_zpow_right₀ one_le_two canonical.greatest) (zpow_pos two_pos e).le
      (by norm_num)

theorem FiniteForm.exists_eq {f : UnpackedFloat} (h : FiniteForm f) :
    ∃ n : ℤ, unpackedValue f = n * 2 ^ (-1074 : ℤ) := by
  cases h with
  | zero => exact ⟨0, by simp [unpackedValue]⟩
  | finite sign _ canonical => exact ⟨_, (decreaseExponent_value sign _ canonical.least).symm⟩

/-- No finite double is greater than the greatest. -/
theorem abs_value_le {x : Float} (h : x.isFinite) : |value x| ≤ greatest :=
  (finiteForm h).abs_le

/-- Finite doubles are multiples of the least one. -/
theorem exists_value_eq {x : Float} (h : x.isFinite) : ∃ n : ℤ, value x = n * 2 ^ (-1074 : ℤ) :=
  (finiteForm h).exists_eq

section

variable {x y : Float} (hx : x.isFinite) (hy : y.isFinite)

include hx hy

theorem rounded_add : Rounded (x + y) (value x + value y) :=
  (rounds_add (finiteForm hx) (finiteForm hy)).rounded

theorem rounded_sub : Rounded (x - y) (value x - value y) :=
  (rounds_sub (finiteForm hx) (finiteForm hy)).rounded

theorem rounded_mul : Rounded (x * y) (value x * value y) :=
  (rounds_mul (finiteForm hx) (finiteForm hy)).rounded

theorem rounded_div (nonzero : value y ≠ 0) : Rounded (x / y) (value x / value y) :=
  (rounds_div (finiteForm hx) (finiteForm hy) nonzero).rounded

end

theorem unpack_of_value_ne_zero {x : Float} (h : value x ≠ 0) :
    ∃ sign m e hm, x.toModel.unpack = .finite sign m e hm := by
  unfold value at h
  cases hx : x.toModel.unpack with
  | finite sign m e hm => exact ⟨sign, m, e, hm, rfl⟩
  | notANumber | infinity | zero =>
    rw [hx] at h
    exact absurd rfl h

/-- A quotient is finite only if the dividend is. -/
theorem isFinite_of_div {x y : Float} (nonzero : value y ≠ 0) (h : (x / y).isFinite) : x.isFinite := by
  obtain ⟨t, n, k, hn, divisor⟩ := unpack_of_value_ne_zero nonzero
  change (unpack .binary64 (pack .binary64 (div .binary64 x.toModel.unpack y.toModel.unpack))).isFinite = true at h
  change x.toModel.unpack.isFinite = true
  rw [divisor] at h
  cases hx : x.toModel.unpack with
  | notANumber =>
    have undefined : pack .binary64 (div .binary64 .notANumber (.finite t n k hn)) = packedNaN .binary64 := rfl
    rwa [hx, undefined, unpack_packedNaN] at h
  | infinity s =>
    have infinite : pack .binary64 (div .binary64 (.infinity s) (.finite t n k hn)) =
      packedInfinity .binary64 (s / t) := rfl
    rwa [hx, infinite, unpack_packedInfinity] at h
  | zero | finite => rfl

/-! ## Whole numbers -/

theorem rounded_toFloat (n : UInt64) : Rounded n.toFloat n.toNat := by
  have rounds := (rounds_normalize n.toNat 0 .positive).rounded
  rw [zpow_zero, mul_one, Int.cast_natCast] at rounds
  exact rounds

theorem two_pow_le_greatest : 2 ^ 53 ≤ greatest := by
  have scale : (2 : ℚ) ^ (1 : ℤ) ≤ 2 ^ (971 : ℤ) := zpow_le_zpow_right₀ one_le_two (by decide)
  unfold greatest
  rw [zpow_one] at scale
  generalize (2 : ℚ) ^ (971 : ℤ) = unit at scale ⊢
  linarith

/-- A whole number with at most 53 bits is a double. -/
theorem Rounded.eq_of_lt {x : Float} {n : Nat} (h : Rounded x n) (small : n < 2 ^ 53) : x.isFinite ∧ value x = n := by
  have bounded : (n : ℚ) < 2 ^ 53 := by exact_mod_cast small
  have magnitude : |(n : ℚ)| = n := abs_of_nonneg n.cast_nonneg
  have finite := h.isFinite (by rw [magnitude]; exact bounded.le.trans two_pow_le_greatest)
  have multiple : (n : ℚ) = (n : ℤ) * 2 ^ (0 : ℤ) := by simp
  refine ⟨finite, ((h.near finite).of_multiple (by decide) multiple).resolve_right ?_⟩
  rintro ⟨large, -⟩
  rw [magnitude, zero_add] at large
  exact absurd bounded (not_lt.2 large)

/-- What a whole number is rounded to is whole too. -/
theorem Rounded.close_of_nat {x : Float} {n : Nat} (h : Rounded x n) (finite : x.isFinite) :
    |value x - n| ≤ n / 2 ^ 53 ∧ ∃ m : ℤ, value x = m := by
  have multiple : (n : ℚ) = (n : ℤ) * 2 ^ (0 : ℤ) := by simp
  obtain ⟨close, m, whole⟩ := (h.near finite).close_of_multiple (by decide) multiple
  rw [Nat.abs_cast] at close
  exact ⟨close, m, by simpa using whole⟩

theorem value_one : value Float.exactlyRepresentablePowersOfTen[0] = 1 := by
  have unpacked : Float.exactlyRepresentablePowersOfTen[0].toModel.unpack =
      .finite .positive (2 ^ 52) (-52) (Nat.two_pow_pos 52) := rfl
  rw [value, unpacked, unpackedValue_positive]
  norm_num

theorem rounded_ofNat (n : Nat) : Rounded (Float.ofNat n) n := by
  by_cases small : n < 2 ^ 53
  · have fast : Float.ofNat n = n.toUInt64.toFloat * Float.exactlyRepresentablePowersOfTen[0] :=
      dif_pos ⟨small, Nat.zero_le 22⟩
    have same : n.toUInt64.toNat = n := Nat.mod_eq_of_lt (by omega)
    have rounded := rounded_toFloat n.toUInt64
    rw [same] at rounded
    obtain ⟨finite, exact⟩ := rounded.eq_of_lt small
    have product := rounded_mul finite (by decide : (Float.exactlyRepresentablePowersOfTen[0]).isFinite)
    rwa [value_one, exact, mul_one, ← fast] at product
  · have positive : 0 < n <<< 53 := by
      rw [Nat.shiftLeft_eq]
      omega
    have slow : Float.ofNat n =
        Float.ofModel (.pack (roundWithAccuracy .binary64 .positive (n <<< 53 * 1) (-53 + 0) .exact)) := by
      have model : Float.ofNat n = Float.ofModel (.pack (UnpackedFloat.ofScientific .binary64 n 0)) :=
        dif_neg fun fast => small fast.1
      have wide : ¬(0 : ℤ) > 2 ^ Format.binary64.exponentBits := by decide
      have narrow : ¬(0 : ℤ) < -((2 ^ Format.binary64.exponentBits : ℤ) + n.log2) := by
        have : (0 : ℤ) < 2 ^ Format.binary64.exponentBits := by decide
        omega
      have filled : n ≠ 0 := by omega
      rw [model, UnpackedFloat.ofScientific, dif_neg filled, if_neg wide, if_neg narrow, if_pos le_rfl]
      rfl
    have long : 53 ≤ (n <<< 53 * 1).log2 := by
      rw [mul_one, log2_shiftLeft (by omega)]
      omega
    have ready : (-53 + 0 : ℤ) ≤ lastExponent (n <<< 53 * 1) (-53 + 0) := by
      unfold lastExponent
      omega
    have rounded := (rounds_roundWithAccuracy .positive (cut_exact _) (.inl (by omega)) ready).rounded
    have exact : ((Sign.positive.apply 1 : ℤ) : ℚ) * ((n <<< 53 * 1 : ℕ) * 2 ^ (-53 + 0 : ℤ)) = n := by
      have unit : (2 : ℚ) ^ (-53 + 0 : ℤ) = (2 ^ 53)⁻¹ := by
        rw [add_zero, zpow_neg, zpow_ofNat]
      rw [Nat.shiftLeft_eq, unit]
      simp only [Sign.apply]
      push_cast
      field_simp
      norm_num
    rw [slow]
    rwa [exact] at rounded

end Formula.Number
