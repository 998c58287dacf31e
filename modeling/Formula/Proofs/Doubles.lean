import Formula.Proofs.Undefined
/-!
# Doubles as numbers

A finite double stands for `± m * 2 ^ e` (`value`). Rounding it to a whole number is exact (`nearest_of_nearestInt?`),
comparing it compares what it stands for (`value_lt_of_lt`), and differences and quotients have the signs of the exact
ones (`sign?_sub_of_lt`, `sign?_div`), however much is lost to rounding.
-/

namespace Formula.Number

open Float.Model (UnpackedFloat Format)
open Float.Model.UnpackedFloat

/-! ## The nearest whole number -/

/-- A whole number is as near to a number as any other, and even if another one is as near. -/
structure Nearest (q : ℚ) (n : ℤ) : Prop where
  close : |q - n| ≤ 1 / 2
  even : |q - n| = 1 / 2 → Even n

/-- A quotient is near to an integer if a small remainder is left. -/
theorem nearest_of_remainder {numerator denominator : Nat} {n rest : ℤ} (hd : 0 < denominator)
    (split : (numerator : ℤ) = n * denominator + rest) (close : 2 * rest.natAbs ≤ denominator)
    (even : 2 * rest.natAbs = denominator → Even n) : Nearest (numerator / denominator) n := by
  have hd : (0 : ℚ) < denominator := Nat.cast_pos.2 hd
  have distance : |(numerator / denominator : ℚ) - n| = rest.natAbs / denominator := by
    have split : (numerator : ℚ) = n * denominator + rest := by exact_mod_cast split
    have quotient : (numerator / denominator : ℚ) - n = rest / denominator := by
      rw [split]
      field_simp
      ring
    rw [quotient, abs_div, abs_of_pos hd, Nat.cast_natAbs, Int.cast_abs]
  constructor
  · rw [distance, div_le_div_iff₀ hd two_pos, mul_comm, one_mul]
    exact_mod_cast close
  · intro tie
    rw [distance, div_eq_div_iff hd.ne' two_ne_zero, mul_comm, one_mul] at tie
    exact even (by exact_mod_cast tie)

/-- Of the two neighbours of a quotient the nearer one is taken, which the remainder tells. -/
theorem nearest_roundedQuotient (numerator : Nat) {denominator : Nat} (hd : 0 < denominator) :
    Nearest (numerator / denominator) (roundedQuotient numerator denominator : ℕ) := by
  have split := Nat.div_add_mod' numerator denominator
  have less := Nat.mod_lt numerator hd
  unfold roundedQuotient
  generalize numerator / denominator = quotient at split ⊢
  generalize numerator % denominator = rest at split less ⊢
  dsimp only
  split
  · next below =>
    rw [Nat.compare_eq_lt] at below
    have split : (numerator : ℤ) = quotient * denominator + rest := by omega
    refine nearest_of_remainder hd split (by omega) fun tie => ?_
    omega
  · next tie =>
    rw [Nat.compare_eq_eq] at tie
    rcases Nat.mod_two_eq_zero_or_one quotient with parity | parity
    · have split : (numerator : ℤ) = quotient * denominator + rest := by omega
      rw [parity, Nat.add_zero]
      refine nearest_of_remainder hd split (by omega) fun _ => ?_
      exact_mod_cast Nat.even_iff.2 parity
    · have split : (numerator : ℤ) = (quotient + 1 : ℕ) * denominator + (rest - denominator) := by
        push_cast
        linarith
      rw [parity]
      refine nearest_of_remainder hd split (by omega) fun _ => ?_
      exact_mod_cast Nat.even_iff.2 (by omega)
  · next above =>
    rw [Nat.compare_eq_gt] at above
    have split : (numerator : ℤ) = (quotient + 1 : ℕ) * denominator + (rest - denominator) := by
      push_cast
      linarith
    refine nearest_of_remainder hd split (by omega) fun tie => ?_
    omega

theorem Nearest.neg {q : ℚ} {n : ℤ} (h : Nearest q n) : Nearest (-q) (-n) := by
  have same : |-q - ((-n : ℤ) : ℚ)| = |q - n| := by
    rw [Int.cast_neg, ← abs_neg]
    congr 1
    ring
  constructor
  · rw [same]
    exact h.close
  · rw [same]
    exact fun tie => (h.even tie).neg

theorem nearest_intCast (n : ℤ) : Nearest n n := by
  constructor <;> norm_num

theorem nearest_nearestNat (m : Nat) (e : ℤ) : Nearest (m * 2 ^ e) (nearestNat m e : ℕ) := by
  unfold nearestNat
  split
  · next whole =>
    obtain ⟨k, rfl⟩ := Int.eq_ofNat_of_zero_le whole
    have integral : (m * 2 ^ (k : ℤ) : ℚ) = ((m * Nat.pow 2 k : ℕ) : ℤ) := by
      rw [Nat.pow_eq]
      push_cast
      rfl
    rw [integral]
    exact nearest_intCast _
  · next negative =>
    obtain ⟨k, hk⟩ := Int.eq_ofNat_of_zero_le (show 0 ≤ -e by omega)
    obtain rfl : e = -k := by omega
    have quotient : (m * 2 ^ (-k : ℤ) : ℚ) = m / (Nat.pow 2 k : ℕ) := by
      rw [Nat.pow_eq, zpow_neg, ← div_eq_mul_inv]
      push_cast
      rfl
    rw [quotient, neg_neg]
    exact nearest_roundedQuotient m (Nat.two_pow_pos k)

/-- The number that a finite double stands for; 0 for the others. -/
def unpackedValue : UnpackedFloat → ℚ
  | .finite sign m e _ => sign.apply m * 2 ^ e
  | _ => 0

/-- The number that a double stands for. -/
def value (x : Float) : ℚ :=
  unpackedValue x.toModel.unpack

theorem nearest_of_nearestInt? {x : Float} {n : ℤ} (h : nearestInt? x = some n) : Nearest (value x) n := by
  unfold nearestInt? at h
  unfold value
  split at h
  · next m e _ hu =>
    rw [hu]
    obtain rfl := Option.some.inj h
    exact nearest_nearestNat m e
  · next m e _ hu =>
    rw [hu]
    obtain rfl := Option.some.inj h
    have negative : unpackedValue (.finite .negative m e ‹_›) = -(m * 2 ^ e) := by
      simp [unpackedValue, Sign.apply]
    rw [negative]
    exact (nearest_nearestNat m e).neg
  · next hu =>
    rw [hu]
    obtain rfl := Option.some.inj h
    exact nearest_intCast 0
  · cases h

theorem nearestInt?_eq_none_iff {x : Float} : nearestInt? x = none ↔ x.isFinite = false := by
  change _ ↔ x.toModel.unpack.isFinite = false
  unfold nearestInt?
  cases x.toModel.unpack with
  | finite sign => cases sign <;> simp [Float.Model.UnpackedFloat.isFinite]
  | notANumber | infinity | zero => simp [Float.Model.UnpackedFloat.isFinite]

/-! ## Order -/

/-- The significand and the exponent of a finite double. The significand has all its bits unless the exponent is the
least one. -/
structure Canonical (m : Nat) (e : ℤ) : Prop where
  significand : m < 2 ^ 53
  least : -1074 ≤ e
  greatest : e ≤ 971
  full : 2 ^ 52 ≤ m ∨ e = -1074

theorem canonical_of_unpack {b : BitVec Format.binary64.numBits} {sign : Sign} {m : Nat} {e : ℤ} {hm : 0 < m}
    (h : unpack .binary64 b = .finite sign m e hm) : Canonical m e := by
  have significand : (unpackMantissa b).toNat < 2 ^ 52 := (unpackMantissa b).isLt
  have exponent : (unpackExponent b).toNat < 2 ^ 11 := (unpackExponent b).isLt
  have hbias : Format.binary64.exponentBias = 1023 := rfl
  unfold unpack at h
  dsimp only at h
  split at h
  · split at h <;> cases h
  · next infinite =>
    split at h
    · next subnormal =>
      split at h
      · cases h
      · cases h
        rw [subnormal, hbias]
        exact ⟨by omega, by decide, by decide, .inr rfl⟩
    · next normal =>
      cases h
      have implicit : (1#1 ++ unpackMantissa b).toNat = 2 ^ 52 + (unpackMantissa b).toNat := by
        rw [BitVec.toNat_append, ← Nat.shiftLeft_add_eq_or_of_lt significand]
        rfl
      rw [implicit, hbias]
      have : (unpackExponent b).toNat ≠ 0 := fun h => normal (BitVec.eq_of_toNat_eq h)
      have : (unpackExponent b).toNat ≠ 2 ^ 11 - 1 := fun h => infinite (BitVec.eq_of_toNat_eq h)
      exact ⟨by omega, by omega, by omega, .inl (by omega)⟩

/-- Canonical doubles are compared by their exponents first: the greater one has all the bits of its significand. -/
theorem Canonical.lt {m n : Nat} {e f : ℤ} (hm : Canonical m e) (hn : Canonical n f)
    (h : (compare e f).then (compare m n) = .lt) : (m : ℚ) * 2 ^ e < n * 2 ^ f := by
  rcases Ordering.then_eq_lt.1 h with less | ⟨same, less⟩
  · have step : e + 1 ≤ f := compare_lt_iff_lt.1 less
    have full : 2 ^ 52 ≤ n := hn.full.resolve_right (by have := hm.least; omega)
    calc (m : ℚ) * 2 ^ e < 2 ^ 53 * 2 ^ e :=
          mul_lt_mul_of_pos_right (by exact_mod_cast hm.significand) (zpow_pos two_pos e)
      _ = 2 ^ 52 * 2 ^ (e + 1) := by rw [zpow_add₀ two_ne_zero]; ring
      _ ≤ n * 2 ^ (e + 1) := mul_le_mul_of_nonneg_right (by exact_mod_cast full) (zpow_pos two_pos _).le
      _ ≤ n * 2 ^ f := mul_le_mul_of_nonneg_left (zpow_le_zpow_right₀ one_le_two step) n.cast_nonneg
  · rw [compare_eq_iff_eq.1 same]
    exact mul_lt_mul_of_pos_right (Nat.cast_lt.2 (compare_lt_iff_lt.1 less)) (zpow_pos two_pos f)

theorem unpackedValue_positive {m : Nat} {e : ℤ} (hm : 0 < m) :
    unpackedValue (.finite .positive m e hm) = m * 2 ^ e := by
  simp [unpackedValue, Sign.apply]

theorem unpackedValue_negative {m : Nat} {e : ℤ} (hm : 0 < m) :
    unpackedValue (.finite .negative m e hm) = -(m * 2 ^ e) := by
  simp [unpackedValue, Sign.apply]

theorem magnitude_pos {m : Nat} (hm : 0 < m) (e : ℤ) : (0 : ℚ) < m * 2 ^ e :=
  mul_pos (Nat.cast_pos.2 hm) (zpow_pos two_pos e)

/-- What a finite double is unpacked to. -/
inductive FiniteForm : UnpackedFloat → Prop
  | zero (sign : Sign) : FiniteForm (.zero sign)
  | finite (sign : Sign) {m : Nat} {e : ℤ} (hm : 0 < m) (canonical : Canonical m e) : FiniteForm (.finite sign m e hm)

theorem finiteForm {x : Float} (h : x.isFinite) : FiniteForm x.toModel.unpack := by
  change x.toModel.unpack.isFinite = true at h
  cases hu : x.toModel.unpack with
  | notANumber | infinity =>
    rw [hu] at h
    cases h
  | zero sign => exact .zero sign
  | finite sign m e hm => exact .finite sign hm (canonical_of_unpack hu)

theorem FiniteForm.value_lt {f g : UnpackedFloat} (hf : FiniteForm f) (hg : FiniteForm g)
    (h : f.compare g = some .lt) : unpackedValue f < unpackedValue g := by
  cases hf with
  | zero s =>
    cases hg with
    | zero t => cases h
    | @finite t n k hn _ =>
      cases t with
      | positive =>
        rw [unpackedValue_positive]
        exact magnitude_pos hn k
      | negative => cases h
  | @finite s m e hm cf =>
    cases hg with
    | zero t =>
      cases s with
      | positive => cases h
      | negative =>
        rw [unpackedValue_negative]
        exact neg_neg_of_pos (magnitude_pos hm e)
    | @finite t n k hn cg =>
      cases s with
      | positive =>
        cases t with
        | positive =>
          rw [unpackedValue_positive, unpackedValue_positive]
          exact cf.lt cg (Option.some.inj h)
        | negative => cases h
      | negative =>
        cases t with
        | positive =>
          rw [unpackedValue_positive, unpackedValue_negative]
          exact (neg_neg_of_pos (magnitude_pos hm e)).trans (magnitude_pos hn k)
        | negative =>
          rw [unpackedValue_negative, unpackedValue_negative]
          refine neg_lt_neg (cg.lt cf ?_)
          rw [← Int.compare_swap, ← Nat.compare_swap, ← Ordering.swap_then]
          exact Option.some.inj h

/-- Finite doubles are ordered as the numbers that they stand for. -/
theorem value_lt_of_lt {x y : Float} (hx : x.isFinite) (hy : y.isFinite) (h : x < y) : value x < value y := by
  have h : (x.toModel.unpack.compare y.toModel.unpack == some .lt) = true := of_decide_eq_true h
  exact (finiteForm hx).value_lt (finiteForm hy) (by simpa using h)

/-! ## Signs -/

/-- The sign of what is a number. -/
def sign? : UnpackedFloat → Option Sign
  | .notANumber => none
  | .infinity sign | .zero sign | .finite sign .. => some sign

theorem sign?_unpack {b : BitVec Format.binary64.numBits} (h : (unpack .binary64 b).isNaN = false) :
    sign? (unpack .binary64 b) = some (Sign.ofBitVec (unpackSign b)) := by
  revert h
  unfold unpack
  dsimp only
  intro h
  split
  · split
    · rfl
    · next infinite payload =>
      rw [if_pos infinite, if_neg payload] at h
      cases h
  · split
    · split <;> rfl
    · rfl

theorem unpackSign_pack {f : UnpackedFloat} {sign : Sign} (h : sign? f = some sign) :
    unpackSign (pack .binary64 f) = sign.toBitVec := by
  cases f with
  | notANumber => cases h
  | infinity | zero =>
    obtain rfl := Option.some.inj h
    exact unpackSign_packComponents ..
  | finite =>
    obtain rfl := Option.some.inj h
    unfold pack packedInfinity
    dsimp only
    split
    · exact unpackSign_packComponents ..
    · split <;> exact unpackSign_packComponents ..

/-- Packing keeps the sign. -/
theorem sign?_unpack_pack {f : UnpackedFloat} {sign : Sign} (h : sign? f = some sign) :
    sign? (unpack .binary64 (pack .binary64 f)) = some sign := by
  have defined : (unpack .binary64 (pack .binary64 f)).isNaN = false := by
    have := isNaN_ofModel_pack f
    cases f with
    | notANumber => cases h
    | infinity | zero | finite => exact this
  rw [sign?_unpack defined, unpackSign_pack h, Sign.ofBitVec_toBitVec]

theorem sign?_roundWithAccuracy (sign : Sign) (m : Nat) (e : ℤ) (accuracy : Accuracy) :
    sign? (roundWithAccuracy .binary64 sign m e accuracy) = some sign := by
  unfold roundWithAccuracy
  dsimp only
  split <;> rfl

theorem sign?_normalize_of_pos {m : ℤ} (hm : 0 < m) (e : ℤ) (zeroSign : Sign) :
    sign? (UnpackedFloat.normalize .binary64 m e zeroSign) = some .positive := by
  unfold UnpackedFloat.normalize
  rw [compare_gt_iff_gt.2 hm]
  exact sign?_roundWithAccuracy ..

theorem sign?_normalize_of_neg {m : ℤ} (hm : m < 0) (e : ℤ) (zeroSign : Sign) :
    sign? (UnpackedFloat.normalize .binary64 m e zeroSign) = some .negative := by
  unfold UnpackedFloat.normalize
  rw [compare_lt_iff_lt.2 hm]
  exact sign?_roundWithAccuracy ..

/-- Writing a significand for a smaller exponent does not change the number. -/
theorem decreaseExponent_value (sign : Sign) (m : Nat) {e least : ℤ} (h : least ≤ e) :
    ((sign.apply (decreaseExponent m e least).1 : ℤ) : ℚ) * 2 ^ least = sign.apply m * 2 ^ e := by
  obtain ⟨k, hk⟩ := Int.eq_ofNat_of_zero_le (show 0 ≤ e - least by omega)
  obtain rfl : e = least + k := by omega
  have shifted : (decreaseExponent m (least + k) least).1 = m * 2 ^ k := by
    rw [decreaseExponent, hk, Nat.shiftLeft_eq]
    rfl
  rw [shifted, zpow_add₀ two_ne_zero, zpow_natCast]
  cases sign <;> simp only [Sign.apply] <;> push_cast <;> ring

/-- A difference has the sign of the exact one. -/
theorem FiniteForm.sign?_sub {f g : UnpackedFloat} (hf : FiniteForm f) (hg : FiniteForm g) :
    (unpackedValue g < unpackedValue f → sign? (sub .binary64 f g) = some .positive) ∧
      (unpackedValue f < unpackedValue g → sign? (sub .binary64 f g) = some .negative) := by
  cases hf with
  | zero s =>
    cases hg with
    | zero t => exact ⟨fun h => absurd h (lt_irrefl _), fun h => absurd h (lt_irrefl _)⟩
    | @finite t n k hn _ =>
      have := magnitude_pos hn k
      cases t with
      | positive =>
        rw [unpackedValue_positive]
        exact ⟨fun h => absurd h this.not_gt, fun _ => rfl⟩
      | negative =>
        rw [unpackedValue_negative]
        exact ⟨fun _ => rfl, fun h => absurd h (neg_neg_of_pos this).not_gt⟩
  | @finite s m e hm _ =>
    cases hg with
    | zero t =>
      have := magnitude_pos hm e
      cases s with
      | positive =>
        rw [unpackedValue_positive]
        exact ⟨fun _ => rfl, fun h => absurd h this.not_gt⟩
      | negative =>
        rw [unpackedValue_negative]
        exact ⟨fun h => absurd h (neg_neg_of_pos this).not_gt, fun _ => rfl⟩
    | @finite t n k hn _ =>
      generalize hd : s.apply (decreaseExponent m e (min e k)).1 - t.apply (decreaseExponent n k (min e k)).1 =
        difference
      have unrounded : (difference : ℚ) * 2 ^ min e k =
          unpackedValue (.finite s m e hm) - unpackedValue (.finite t n k hn) := by
        rw [← hd, Int.cast_sub, sub_mul, decreaseExponent_value s m (min_le_left e k),
          decreaseExponent_value t n (min_le_right e k)]
        rfl
      have unit : (0 : ℚ) < 2 ^ min e k := zpow_pos two_pos _
      have rounded : sub .binary64 (.finite s m e hm) (.finite t n k hn) =
          UnpackedFloat.normalize .binary64 difference (min e k) .positive := by
        rw [← hd]
        rfl
      rw [rounded]
      constructor
      · intro h
        have positive : (0 : ℚ) < difference := pos_of_mul_pos_left (unrounded ▸ sub_pos.2 h) unit.le
        exact sign?_normalize_of_pos (Int.cast_pos.1 positive) _ _
      · intro h
        have negative : (difference : ℚ) < 0 := neg_of_mul_neg_left (unrounded ▸ sub_neg.2 h) unit.le
        exact sign?_normalize_of_neg (Int.cast_lt_zero.1 negative) _ _

theorem sign?_div_finite (f : UnpackedFloat) (sign : Sign) {m : Nat} {e : ℤ} (hm : 0 < m) :
    sign? (div .binary64 f (.finite sign m e hm)) = (sign? f).map (· / sign) := by
  cases f with
  | notANumber | infinity | zero => rfl
  | finite => exact sign?_roundWithAccuracy ..

/-- The differences of two doubles have the signs of the exact ones, also where they are rounded or too great. -/
theorem sign?_sub_of_lt {x y : Float} (hx : x.isFinite) (hy : y.isFinite) (h : x < y) :
    sign? (y - x).toModel.unpack = some .positive ∧ sign? (x - y).toModel.unpack = some .negative := by
  have less := value_lt_of_lt hx hy h
  exact ⟨sign?_unpack_pack (((finiteForm hy).sign?_sub (finiteForm hx)).1 less),
    sign?_unpack_pack (((finiteForm hx).sign?_sub (finiteForm hy)).2 less)⟩

theorem sign?_div {x y : Float} {s t : Sign} {m : Nat} {e : ℤ} {hm : 0 < m} (hx : sign? x.toModel.unpack = some s)
    (hy : y.toModel.unpack = .finite t m e hm) : sign? (x / y).toModel.unpack = some (s / t) := by
  have quotient : sign? (div .binary64 x.toModel.unpack y.toModel.unpack) = some (s / t) := by
    rw [hy, sign?_div_finite, hx]
    rfl
  exact sign?_unpack_pack quotient

theorem value_zero : value 0 = 0 := by
  decide

theorem FiniteForm.eq_of_pos {f : UnpackedFloat} (hf : FiniteForm f) (h : 0 < unpackedValue f) :
    ∃ m e hm, f = .finite .positive m e hm := by
  cases hf with
  | zero => exact absurd h (lt_irrefl 0)
  | @finite sign m e hm _ =>
    cases sign with
    | positive => exact ⟨m, e, hm, rfl⟩
    | negative =>
      rw [unpackedValue_negative] at h
      exact absurd h (neg_neg_of_pos (magnitude_pos hm e)).not_gt

theorem FiniteForm.eq_of_neg {f : UnpackedFloat} (hf : FiniteForm f) (h : unpackedValue f < 0) :
    ∃ m e hm, f = .finite .negative m e hm := by
  cases hf with
  | zero => exact absurd h (lt_irrefl 0)
  | @finite sign m e hm _ =>
    cases sign with
    | negative => exact ⟨m, e, hm, rfl⟩
    | positive =>
      rw [unpackedValue_positive] at h
      exact absurd h (magnitude_pos hm e).not_gt

theorem unpack_of_pos {x : Float} (hx : x.isFinite) (h : 0 < x) :
    ∃ m e hm, x.toModel.unpack = .finite .positive m e hm := by
  have positive := value_lt_of_lt (by decide) hx h
  rw [value_zero] at positive
  exact (finiteForm hx).eq_of_pos positive

theorem unpack_of_neg {x : Float} (hx : x.isFinite) (h : x < 0) :
    ∃ m e hm, x.toModel.unpack = .finite .negative m e hm := by
  have negative := value_lt_of_lt hx (by decide) h
  rw [value_zero] at negative
  exact (finiteForm hx).eq_of_neg negative

/-- A double with a positive sign is not rounded to a negative number. -/
theorem nearestInt?_nonneg {x : Float} {n : ℤ} (h : nearestInt? x = some n)
    (positive : sign? x.toModel.unpack = some .positive) : 0 ≤ n := by
  unfold nearestInt? at h
  split at h
  · obtain rfl := Option.some.inj h
    exact Int.natCast_nonneg _
  · next hu =>
    rw [hu] at positive
    cases positive
  · obtain rfl := Option.some.inj h
    exact Int.le_refl 0
  · cases h

end Formula.Number
