import Formula.Proofs.Packing
/-!
# Rounding

An operation on doubles cuts its exact result off and rounds what is left. Two bits are enough to tell how much was cut
off (`Cut`), so the significand is the nearest whole one, for the exponent of the 53rd bit or for the least exponent
(`rounds_roundWithAccuracy`). Sums, differences, products and quotients are all rounded in this way (`rounds_add` and
the others). Whether the exponent can be packed is left open here.
-/

namespace Formula.Number

open Float.Model (UnpackedFloat Format totalExponent)
open Float.Model.UnpackedFloat

/-! ## Cut significands -/

/-- A number is cut off to a whole one. The round bit is the half that it lacks, the sticky bit is set if still more is
cut off. -/
structure Cut (em : ExtendedMantissa) (q rest : ℚ) : Prop where
  split : q = em.mantissa + (if em.roundBit then 1 / 2 else 0) + rest
  nonneg : 0 ≤ rest
  less : rest < 1 / 2
  sticky : em.stickyBit ↔ 0 < rest

theorem cut_exact (m : Nat) : Cut (.ofMantissaAndAccuracy m .exact) m 0 where
  split := by simp [ExtendedMantissa.ofMantissaAndAccuracy]
  nonneg := le_rfl
  less := by norm_num
  sticky := by simp [ExtendedMantissa.ofMantissaAndAccuracy]

/-- With one bit less the round bit becomes a part of the rest. -/
theorem Cut.shiftRightOne {em : ExtendedMantissa} {q rest : ℚ} (h : Cut em q rest) :
    Cut em.shiftRightOne (q / 2) ((if em.roundBit then 1 / 4 else 0) + rest / 2) := by
  obtain ⟨m, roundBit, stickyBit⟩ := em
  obtain ⟨split, nonneg, less, sticky⟩ := h
  have halves : (m : ℚ) = 2 * (m / 2 : ℕ) + (m % 2 : ℕ) := by exact_mod_cast (Nat.div_add_mod m 2).symm
  have lost : (if m % 2 != 0 then 1 / 2 else 0 : ℚ) = (m % 2 : ℕ) / 2 := by
    rcases Nat.mod_two_eq_zero_or_one m with parity | parity <;> simp [parity]
  dsimp only [ExtendedMantissa.shiftRightOne] at split sticky ⊢
  refine ⟨?_, ?_, ?_, ?_⟩
  · dsimp only
    rw [split, halves, lost]
    cases roundBit <;> simp <;> ring
  · cases roundBit <;> simp <;> linarith
  · cases roundBit <;> simp <;> linarith
  · cases roundBit with
    | false => simpa using sticky
    | true =>
      simp
      linarith

theorem Cut.shiftRight {em : ExtendedMantissa} {q rest : ℚ} (h : Cut em q rest) (n : Nat) :
    ∃ rest, Cut (em >>> n) (q / 2 ^ n) rest := by
  change ∃ rest, Cut (n.repeat ExtendedMantissa.shiftRightOne em) _ rest
  induction n with
  | zero => exact ⟨rest, by simpa [Nat.repeat] using h⟩
  | succ n ih =>
    obtain ⟨rest, cut⟩ := ih
    rw [pow_succ, ← div_div]
    exact ⟨_, cut.shiftRightOne⟩

theorem Nearest.of_lt {q : ℚ} {n : ℤ} (h : |q - n| < 1 / 2) : Nearest q n :=
  ⟨h.le, fun tie => absurd tie h.ne⟩

/-- A number in the middle between two whole ones is rounded to the even one. -/
theorem nearest_tie (m : Nat) : Nearest (m + 1 / 2) (m + m % 2 : ℕ) := by
  rcases Nat.mod_two_eq_zero_or_one m with parity | parity
  · rw [parity, Nat.add_zero]
    refine ⟨by norm_num, fun _ => ?_⟩
    exact_mod_cast Nat.even_iff.2 parity
  · rw [parity]
    refine ⟨by push_cast; norm_num, fun _ => ?_⟩
    exact_mod_cast Nat.even_iff.2 (by omega : (m + 1) % 2 = 0)

/-- The bits are enough to find the nearest whole number. -/
theorem Cut.nearest {em : ExtendedMantissa} {q rest : ℚ} (h : Cut em q rest) :
    Nearest q (em.roundedMantissa : ℕ) := by
  obtain ⟨m, roundBit, stickyBit⟩ := em
  obtain ⟨rfl, nonneg, less, sticky⟩ := h
  cases stickyBit with
  | false =>
    have whole : rest = 0 := le_antisymm (not_lt.1 (by simpa using sticky)) nonneg
    rw [whole]
    cases roundBit with
    | false =>
      change Nearest _ (m : ℕ)
      simpa using nearest_intCast m
    | true =>
      change Nearest _ (m + m % 2 : ℕ)
      simpa using nearest_tie m
  | true =>
    have positive : 0 < rest := by simpa using sticky
    cases roundBit with
    | false =>
      change Nearest _ (m : ℕ)
      refine .of_lt (abs_lt.2 ⟨?_, ?_⟩) <;> simp <;> linarith
    | true =>
      change Nearest _ (m + 1 : ℕ)
      refine .of_lt (abs_lt.2 ⟨?_, ?_⟩) <;> simp <;> linarith

theorem Cut.le {em : ExtendedMantissa} {q rest : ℚ} (h : Cut em q rest) : em.mantissa ≤ q ∧ q < em.mantissa + 1 := by
  obtain ⟨rfl, nonneg, less, -⟩ := h
  split <;> constructor <;> linarith

/-! ## Nearest whole numbers -/

theorem Nearest.le {q : ℚ} {n bound : ℤ} (h : Nearest q n) (below : q ≤ bound) : n ≤ bound := by
  have close := (abs_le.1 h.close).1
  have : (n : ℚ) < bound + 1 := by linarith
  exact Int.lt_add_one_iff.1 (by exact_mod_cast this)

theorem Nearest.ge {q : ℚ} {n bound : ℤ} (h : Nearest q n) (above : bound ≤ q) : bound ≤ n := by
  have close := (abs_le.1 h.close).2
  have : (bound : ℚ) < n + 1 := by linarith
  exact Int.lt_add_one_iff.1 (by exact_mod_cast this)

theorem Nearest.eq {q : ℚ} {n whole : ℤ} (h : Nearest q n) (exact : q = whole) : n = whole :=
  le_antisymm (h.le exact.le) (h.ge exact.ge)

/-! ## Exponents -/

/-- The exponent of the last bit that is kept. -/
def lastExponent (m : Nat) (e : ℤ) : ℤ :=
  max (m.log2 + e - 52) (-1074)

theorem targetExponent_eq (m : Nat) (e : ℤ) :
    Format.binary64.targetExponent (totalExponent m e) = lastExponent m e := by
  change max ((m.log2 : ℤ) + 1 + e - 53) (-1074) = max (m.log2 + e - 52) (-1074)
  congr 1
  ring

theorem shiftToTargetExponent_eq {m : Nat} {e : ℤ} (ready : e ≤ lastExponent m e) (accuracy : Accuracy) :
    shiftToTargetExponent .binary64 m e accuracy =
      (ExtendedMantissa.ofMantissaAndAccuracy m accuracy >>> (lastExponent m e - e).toNat, lastExponent m e) := by
  unfold shiftToTargetExponent shiftToExponent
  dsimp only
  rw [targetExponent_eq, Int.toNat_of_nonneg (sub_nonneg.2 ready), add_sub_cancel]

/-- A significand that is not too long is kept. -/
theorem shiftToTargetExponent_of_lt {m : Nat} {e : ℤ} (short : m < 2 ^ 53) (least : -1074 ≤ e) :
    shiftToTargetExponent .binary64 m e .exact = (⟨m, false, false⟩, e) := by
  have bits : m.log2 ≤ 52 := by
    by_cases empty : m = 0
    · rw [empty]
      decide
    · have := (Nat.log2_lt empty).2 short
      omega
  have kept : (lastExponent m e - e).toNat = 0 := by
    unfold lastExponent
    omega
  unfold shiftToTargetExponent shiftToExponent
  dsimp only
  rw [targetExponent_eq, kept, Nat.cast_zero, add_zero]
  rfl

/-- The significand that is one too great has one bit less with the next exponent. -/
theorem shiftToTargetExponent_of_full {e : ℤ} (least : -1074 ≤ e) :
    shiftToTargetExponent .binary64 (2 ^ 53) e .exact = (⟨2 ^ 52, false, false⟩, e + 1) := by
  have next : lastExponent (2 ^ 53) e = e + 1 := by
    rw [lastExponent, Nat.log2_two_pow]
    omega
  rw [shiftToTargetExponent_eq (by omega), next, add_sub_cancel_left]
  rfl

/-! ## Signs of numbers -/

theorem apply_eq (s : Sign) (m : Nat) : s.apply m = s.apply 1 * m := by
  cases s <;> simp [Sign.apply]

theorem apply_mul (s t : Sign) : (s * t).apply 1 = s.apply 1 * t.apply 1 := by
  cases s <;> cases t <;> rfl

theorem apply_div (s t : Sign) : (s / t).apply 1 = s.apply 1 * t.apply 1 := by
  cases s <;> cases t <;> rfl

theorem apply_neg (s : Sign) : (-s).apply 1 = -s.apply 1 := by
  cases s <;> rfl

theorem unpackedValue_finite (sign : Sign) {m : Nat} (e : ℤ) (hm : 0 < m) :
    unpackedValue (.finite sign m e hm) = sign.apply 1 * (m * 2 ^ e) := by
  cases sign <;> simp [unpackedValue, Sign.apply]

/-! ## Rounded forms -/

/-- What rounding gives. The exponent may be too great to be packed. -/
inductive RoundedForm : UnpackedFloat → Prop
  | zero (sign : Sign) : RoundedForm (.zero sign)
  | finite (sign : Sign) {m : Nat} {e : ℤ} (hm : 0 < m) (significand : m < 2 ^ 53) (least : -1074 ≤ e)
      (full : 2 ^ 52 ≤ m ∨ e = -1074) : RoundedForm (.finite sign m e hm)

/-- A number is rounded to a multiple of a unit that is the least one, or so small that 53 bits are kept. -/
def Near (v q : ℚ) : Prop :=
  ∃ unit : ℤ, -1074 ≤ unit ∧ (unit = -1074 ∨ 2 ^ (unit + 52) ≤ |q|) ∧
    ∃ n : ℤ, Nearest (q / 2 ^ unit) n ∧ v = n * 2 ^ unit

structure Rounds (f : UnpackedFloat) (q : ℚ) : Prop where
  form : RoundedForm f
  near : Near (unpackedValue f) q

theorem Near.neg {v q : ℚ} (h : Near v q) : Near (-v) (-q) := by
  obtain ⟨unit, least, small, n, nearest, rfl⟩ := h
  refine ⟨unit, least, by rwa [abs_neg], -n, ?_, by push_cast; ring⟩
  rw [neg_div]
  exact nearest.neg

theorem Near.signed (sign : Sign) {v q : ℚ} (h : Near v q) : Near (sign.apply 1 * v) (sign.apply 1 * q) := by
  cases sign with
  | positive => simpa [Sign.apply] using h
  | negative => simpa [Sign.apply] using h.neg

/-- A significand that was rounded, with its exponent. -/
def settled (sign : Sign) (shifted : ExtendedMantissa × ℤ) : UnpackedFloat :=
  if h : shifted.1.mantissa = 0 then .zero sign else .finite sign shifted.1.mantissa shifted.2 (Nat.pos_of_ne_zero h)

theorem unpackedValue_settled (sign : Sign) (em : ExtendedMantissa) (e : ℤ) :
    unpackedValue (settled sign (em, e)) = sign.apply em.mantissa * 2 ^ e := by
  unfold settled
  split
  · next empty =>
    rw [empty]
    cases sign <;> simp [unpackedValue, Sign.apply]
  · rfl

/-- Nothing more is lost. -/
theorem settled_rounded (sign : Sign) {n : Nat} {unit : ℤ} (bound : n ≤ 2 ^ 53) (least : -1074 ≤ unit)
    (full : 2 ^ 52 ≤ n ∨ unit = -1074) :
    RoundedForm (settled sign (shiftToTargetExponent .binary64 n unit .exact)) ∧
      unpackedValue (settled sign (shiftToTargetExponent .binary64 n unit .exact)) = sign.apply n * 2 ^ unit := by
  rcases Nat.lt_or_eq_of_le bound with short | rfl
  · rw [shiftToTargetExponent_of_lt short least]
    refine ⟨?_, unpackedValue_settled ..⟩
    unfold settled
    split
    · exact .zero sign
    · exact .finite sign _ short least full
  · rw [shiftToTargetExponent_of_full least]
    refine ⟨.finite sign (Nat.two_pow_pos 52) (by norm_num) (by omega) (.inl le_rfl), ?_⟩
    rw [unpackedValue_settled, zpow_add₀ two_ne_zero]
    cases sign <;> simp only [Sign.apply] <;> norm_num <;> ring

theorem mantissa_ofMantissaAndAccuracy (m : Nat) (accuracy : Accuracy) :
    (ExtendedMantissa.ofMantissaAndAccuracy m accuracy).mantissa = m := by
  rcases accuracy with _ | order
  · rfl
  · cases order <;> rfl

/-- So many bits are left as there is room for. -/
theorem Cut.bounds {m : Nat} {e : ℤ} {accuracy : Accuracy} {q rest : ℚ}
    (cut : Cut (.ofMantissaAndAccuracy m accuracy) q rest) (filled : 0 < m ∨ e ≤ -1074) :
    q * 2 ^ e ≤ 2 ^ (lastExponent m e + 53) ∧
      (lastExponent m e = -1074 ∨ 2 ^ (lastExponent m e + 52) ≤ q * 2 ^ e) := by
  obtain ⟨above, below⟩ := cut.le
  rw [mantissa_ofMantissaAndAccuracy] at above below
  have unit : (0 : ℚ) < 2 ^ e := zpow_pos two_pos e
  constructor
  · have bits : m + 1 ≤ 2 ^ (m.log2 + 1) := Nat.lt_log2_self
    calc q * 2 ^ e ≤ (2 ^ (m.log2 + 1) : ℕ) * 2 ^ e :=
          mul_le_mul_of_nonneg_right (below.le.trans (by exact_mod_cast bits)) unit.le
      _ = 2 ^ ((m.log2 + 1 : ℕ) + e) := by rw [zpow_add₀ two_ne_zero, zpow_natCast]; push_cast; rfl
      _ ≤ 2 ^ (lastExponent m e + 53) := zpow_le_zpow_right₀ one_le_two (by unfold lastExponent; omega)
  · rcases eq_or_ne (lastExponent m e) (-1074) with last | normal
    · exact .inl last
    · have hm : m ≠ 0 := by
        rintro rfl
        unfold lastExponent at normal
        simp at normal filled
        omega
      have bits : 2 ^ m.log2 ≤ m := Nat.log2_self_le hm
      have exponent : lastExponent m e + 52 = m.log2 + e := by
        unfold lastExponent at normal ⊢
        omega
      refine .inr ?_
      rw [exponent, zpow_add₀ two_ne_zero, zpow_natCast]
      exact mul_le_mul_of_nonneg_right (le_trans (by exact_mod_cast bits) above) unit.le

/-- The rounded significand has the bits that there is room for, or one bit more with zeros after it. -/
theorem Nearest.significand {q : ℚ} {unit : ℤ} {n : Nat} (nearest : Nearest (q / 2 ^ unit) n)
    (below : q ≤ 2 ^ (unit + 53)) (above : unit = -1074 ∨ 2 ^ (unit + 52) ≤ q) :
    n ≤ 2 ^ 53 ∧ (2 ^ 52 ≤ n ∨ unit = -1074) := by
  have size : (0 : ℚ) < 2 ^ unit := zpow_pos two_pos unit
  constructor
  · have bound : q / 2 ^ unit ≤ ((2 ^ 53 : ℕ) : ℤ) := by
      rw [div_le_iff₀ size]
      rw [zpow_add₀ two_ne_zero] at below
      push_cast
      linarith
    exact_mod_cast nearest.le bound
  · rcases above with last | above
    · exact .inr last
    · have bound : ((2 ^ 52 : ℕ) : ℤ) ≤ q / 2 ^ unit := by
        rw [le_div_iff₀ size]
        rw [zpow_add₀ two_ne_zero] at above
        push_cast
        linarith
      exact .inl (by exact_mod_cast nearest.ge bound)

/-- A result of an operation is rounded once, whatever part of it was cut off before. -/
theorem rounds_roundWithAccuracy (sign : Sign) {m : Nat} {e : ℤ} {accuracy : Accuracy} {q rest : ℚ}
    (cut : Cut (.ofMantissaAndAccuracy m accuracy) q rest) (filled : 0 < m ∨ e ≤ -1074)
    (ready : e ≤ lastExponent m e) :
    Rounds (roundWithAccuracy .binary64 sign m e accuracy) (sign.apply 1 * (q * 2 ^ e)) := by
  obtain ⟨below, above⟩ := cut.bounds filled
  have least : -1074 ≤ lastExponent m e := le_max_right _ _
  obtain ⟨_, shifted⟩ := cut.shiftRight (lastExponent m e - e).toNat
  have nearest := shifted.nearest
  have scale : q / 2 ^ (lastExponent m e - e).toNat = q * 2 ^ e / 2 ^ lastExponent m e := by
    rw [← zpow_natCast, Int.toNat_of_nonneg (sub_nonneg.2 ready), zpow_sub₀ two_ne_zero, div_div_eq_mul_div]
  rw [scale] at nearest
  have rounded : roundWithAccuracy .binary64 sign m e accuracy =
      settled sign (shiftToTargetExponent .binary64
        (ExtendedMantissa.ofMantissaAndAccuracy m accuracy >>> (lastExponent m e - e).toNat).roundedMantissa
        (lastExponent m e) .exact) := by
    unfold roundWithAccuracy
    rw [shiftToTargetExponent_eq ready]
    rfl
  rw [rounded]
  -- From here on, the significand is any that is nearest.
  generalize (ExtendedMantissa.ofMantissaAndAccuracy m accuracy >>> (lastExponent m e - e).toNat).roundedMantissa =
    n at nearest ⊢
  generalize lastExponent m e = unit at below above least nearest ⊢
  obtain ⟨bound, full⟩ := nearest.significand below above
  obtain ⟨form, value⟩ := settled_rounded sign bound least full
  have nonneg : 0 ≤ q := (Nat.cast_nonneg _).trans cut.le.1
  have magnitude : |q * 2 ^ e| = q * 2 ^ e := abs_of_nonneg (mul_nonneg nonneg (zpow_pos two_pos e).le)
  have near : Near (n * 2 ^ unit) (q * 2 ^ e) := ⟨unit, least, by rwa [magnitude], n, nearest, rfl⟩
  refine ⟨form, ?_⟩
  rw [value, apply_eq]
  push_cast
  rw [mul_assoc]
  exact near.signed sign

/-! ## Operations -/

theorem FiniteForm.rounds {f : UnpackedFloat} (h : FiniteForm f) : Rounds f (unpackedValue f) := by
  cases h with
  | zero sign =>
    refine ⟨.zero sign, -1074, le_rfl, .inl rfl, 0, ?_, ?_⟩
    · simpa [unpackedValue] using nearest_intCast 0
    · simp [unpackedValue]
  | @finite sign m e hm canonical =>
    refine ⟨.finite sign hm canonical.significand canonical.least canonical.full, ?_⟩
    have unit : (0 : ℚ) < 2 ^ e := zpow_pos two_pos e
    have near : Near (m * 2 ^ e) (m * 2 ^ e) := by
      refine ⟨e, canonical.least, ?_, m, ?_, rfl⟩
      · rcases canonical.full with full | last
        · rw [abs_of_nonneg (magnitude_pos hm e).le, zpow_add₀ two_ne_zero, mul_comm]
          exact .inr (mul_le_mul_of_nonneg_right (by exact_mod_cast full) unit.le)
        · exact .inl last
      · rw [mul_div_cancel_right₀ _ unit.ne']
        exact nearest_intCast m
    rw [unpackedValue_finite]
    exact near.signed sign

theorem log2_shiftLeft {m : Nat} (hm : 0 < m) (k : Nat) : (m <<< k).log2 = m.log2 + k := by
  have positive : m <<< k ≠ 0 := by
    rw [Nat.shiftLeft_eq]
    positivity
  rw [Nat.log2_eq_iff positive, Nat.shiftLeft_eq]
  constructor
  · rw [pow_add]
    exact Nat.mul_le_mul_right _ (Nat.log2_self_le hm.ne')
  · rw [Nat.add_right_comm, pow_add]
    exact Nat.mul_lt_mul_of_pos_right Nat.lt_log2_self (Nat.two_pow_pos k)

theorem rounds_round (sign : Sign) {m : Nat} (hm : 0 < m) (e : ℤ) :
    Rounds (UnpackedFloat.round .binary64 sign m e) (sign.apply 1 * (m * 2 ^ e)) := by
  unfold UnpackedFloat.round decreaseExponent
  dsimp only
  rw [targetExponent_eq]
  generalize hk : (e - lastExponent m e).toNat = k
  have long := log2_shiftLeft hm k
  have same : lastExponent (m <<< k) (e - k) = lastExponent m e := by
    unfold lastExponent
    rw [long]
    push_cast
    congr 1
    ring
  have exact : ((m <<< k : ℕ) : ℚ) * 2 ^ (e - k) = m * 2 ^ e := by
    rw [Nat.shiftLeft_eq, zpow_sub₀ two_ne_zero, zpow_natCast]
    push_cast
    field_simp
  have positive : 0 < m <<< k := by
    rw [Nat.shiftLeft_eq]
    positivity
  rw [← exact]
  exact rounds_roundWithAccuracy sign (cut_exact _) (.inl positive) (by omega)

theorem rounds_normalize (m e : ℤ) (zeroSign : Sign) :
    Rounds (UnpackedFloat.normalize .binary64 m e zeroSign) (m * 2 ^ e) := by
  unfold UnpackedFloat.normalize
  rcases lt_trichotomy m 0 with negative | rfl | positive
  · rw [compare_lt_iff_lt.2 negative]
    have positive : 0 < (-m).toNat := by omega
    have rounds := rounds_round .negative positive e
    have magnitude : (((-m).toNat : ℕ) : ℚ) = -m := by
      exact_mod_cast Int.toNat_of_nonneg (by omega : 0 ≤ -m)
    simpa [Sign.apply, magnitude] using rounds
  · rw [compare_eq_iff_eq.2 rfl]
    simpa [unpackedValue] using (FiniteForm.zero zeroSign).rounds
  · rw [compare_gt_iff_gt.2 positive]
    have whole : 0 < m.toNat := by omega
    have rounds := rounds_round .positive whole e
    have magnitude : ((m.toNat : ℕ) : ℚ) = m := by
      exact_mod_cast Int.toNat_of_nonneg positive.le
    simpa [Sign.apply, magnitude] using rounds

/-- A product has bits enough, or is so small that they do not matter. -/
theorem Canonical.product_ready {m n : Nat} {e k : ℤ} (cm : Canonical m e) (cn : Canonical n k) (hm : 0 < m)
    (hn : 0 < n) : e + k ≤ lastExponent (m * n) (e + k) := by
  have long : 52 ≤ (m * n).log2 ∨ e + k ≤ -1074 := by
    have product := Nat.mul_pos hm hn
    rw [Nat.le_log2 product.ne']
    rcases cm.full with full | rfl
    · exact .inl (full.trans (Nat.le_mul_of_pos_right m hn))
    · rcases cn.full with full | rfl
      · exact .inl (full.trans (Nat.le_mul_of_pos_left n hm))
      · exact .inr (by decide)
  unfold lastExponent
  omega

section

variable {f g : UnpackedFloat} (hf : FiniteForm f) (hg : FiniteForm g)

include hf hg

theorem rounds_add : Rounds (add .binary64 f g) (unpackedValue f + unpackedValue g) := by
  cases hf with
  | zero s =>
    cases hg with
    | zero t =>
      have sum : add .binary64 (.zero s) (.zero t) = .zero (if s == t then s else .positive) := by
        cases s <;> cases t <;> rfl
      simpa [sum, unpackedValue] using (FiniteForm.zero (if s == t then s else .positive)).rounds
    | @finite t n k hn cg => simpa [add, unpackedValue] using (FiniteForm.finite t hn cg).rounds
  | @finite s m e hm cf =>
    cases hg with
    | zero t => simpa [add, unpackedValue] using (FiniteForm.finite s hm cf).rounds
    | @finite t n k hn cg =>
      have sum := rounds_normalize (s.apply (decreaseExponent m e (min e k)).1 +
        t.apply (decreaseExponent n k (min e k)).1) (min e k) .positive
      rw [Int.cast_add, add_mul, decreaseExponent_value s m (min_le_left e k),
        decreaseExponent_value t n (min_le_right e k)] at sum
      exact sum

theorem rounds_mul : Rounds (mul .binary64 f g) (unpackedValue f * unpackedValue g) := by
  cases hf with
  | zero s =>
    cases hg with
    | zero t => simpa [mul, unpackedValue] using (FiniteForm.zero (s * t)).rounds
    | @finite t n k hn cg => simpa [mul, unpackedValue] using (FiniteForm.zero (s * t)).rounds
  | @finite s m e hm cf =>
    cases hg with
    | zero t => simpa [mul, unpackedValue] using (FiniteForm.zero (s * t)).rounds
    | @finite t n k hn cg =>
      have ready := cf.product_ready cg hm hn
      have rounds := rounds_roundWithAccuracy (s * t) (cut_exact _) (.inl (Nat.mul_pos hm hn)) ready
      have exact : unpackedValue (.finite s m e hm) * unpackedValue (.finite t n k hn) =
          (s * t).apply 1 * ((m * n : ℕ) * 2 ^ (e + k)) := by
        rw [unpackedValue_finite, unpackedValue_finite, apply_mul, zpow_add₀ two_ne_zero]
        push_cast
        ring
      rw [exact]
      exact rounds

theorem rounds_sub : Rounds (sub .binary64 f g) (unpackedValue f - unpackedValue g) := by
  cases hf with
  | zero s =>
    cases hg with
    | zero t =>
      have difference : sub .binary64 (.zero s) (.zero t) = .zero (if s == -t then s else .positive) := by
        cases s <;> cases t <;> rfl
      simpa [difference, unpackedValue] using (FiniteForm.zero (if s == -t then s else .positive)).rounds
    | @finite t n k hn cg =>
      have opposite : unpackedValue (.finite (-t) n k hn) = -unpackedValue (.finite t n k hn) := by
        rw [unpackedValue_finite, unpackedValue_finite, apply_neg]
        push_cast
        ring
      have rounds := (FiniteForm.finite (-t) hn cg).rounds
      rw [opposite] at rounds
      have zero : unpackedValue (.zero s) = 0 := rfl
      rw [zero, zero_sub]
      exact rounds
  | @finite s m e hm cf =>
    cases hg with
    | zero t => simpa [sub, unpackedValue] using (FiniteForm.finite s hm cf).rounds
    | @finite t n k hn cg =>
      have difference := rounds_normalize (s.apply (decreaseExponent m e (min e k)).1 -
        t.apply (decreaseExponent n k (min e k)).1) (min e k) .positive
      rw [Int.cast_sub, sub_mul, decreaseExponent_value s m (min_le_left e k),
        decreaseExponent_value t n (min_le_right e k)] at difference
      exact difference

end

/-- The part of the quotient that is cut off is told by the remainder. -/
theorem cut_div (m : Nat) {d : Nat} (hd : 0 < d) :
    ∃ rest, Cut (.ofMantissaAndAccuracy (m / d) (accuracyOfFraction (m % d) d)) (m / d) rest := by
  have less : m % d < d := Nat.mod_lt m hd
  have split : (m / d : ℚ) = (m / d : ℕ) + (m % d : ℕ) / d := by
    have positive : (d : ℚ) ≠ 0 := by exact_mod_cast hd.ne'
    have whole : (m : ℚ) = d * (m / d : ℕ) + (m % d : ℕ) := by exact_mod_cast (Nat.div_add_mod m d).symm
    field_simp
    linarith
  generalize m / d = quotient at split ⊢
  generalize m % d = part at less split ⊢
  have positive : (0 : ℚ) < d := by exact_mod_cast hd
  have fraction : (part / d : ℚ) < 1 := by
    rw [div_lt_one positive]
    exact_mod_cast less
  rw [split]
  unfold accuracyOfFraction
  by_cases exact : part = 0
  · rw [if_pos exact, exact]
    refine ⟨0, ?_⟩
    simpa using cut_exact quotient
  · rw [if_neg exact]
    have some : (0 : ℚ) < part / d := div_pos (by exact_mod_cast Nat.pos_of_ne_zero exact) positive
    rcases lt_trichotomy (2 * part) d with below | half | above
    · rw [Nat.compare_eq_lt.2 below]
      have less : (part / d : ℚ) < 1 / 2 := by
        rw [div_lt_div_iff₀ positive two_pos]
        exact_mod_cast (by omega : part * 2 < 1 * d)
      refine ⟨part / d, ?_, some.le, less, ?_⟩
      · simp [ExtendedMantissa.ofMantissaAndAccuracy]
      · simpa [ExtendedMantissa.ofMantissaAndAccuracy] using some
    · rw [Nat.compare_eq_eq.2 half]
      have same : (part / d : ℚ) = 1 / 2 := by
        rw [div_eq_div_iff positive.ne' two_ne_zero]
        exact_mod_cast (by omega : part * 2 = 1 * d)
      refine ⟨0, ?_, le_rfl, by norm_num, ?_⟩
      · simp [ExtendedMantissa.ofMantissaAndAccuracy, same]
      · simp [ExtendedMantissa.ofMantissaAndAccuracy]
    · rw [Nat.compare_eq_gt.2 above]
      have more : (1 / 2 : ℚ) < part / d := by
        rw [div_lt_div_iff₀ two_pos positive]
        exact_mod_cast (by omega : 1 * d < part * 2)
      refine ⟨part / d - 1 / 2, ?_, by linarith, by linarith, ?_⟩
      · simp [ExtendedMantissa.ofMantissaAndAccuracy]
      · simpa [ExtendedMantissa.ofMantissaAndAccuracy] using more

/-- A quotient has as many bits as there is room for, or its exponent is that of the least double. -/
theorem divCore_eq {m n : Nat} (e k : ℤ) (hm : 0 < m) (hn : 0 < n) :
    ∃ shift exponent, divCore .binary64 m e n k =
        ((m <<< shift) / n, exponent, accuracyOfFraction ((m <<< shift) % n) n) ∧
      exponent = e - k - shift ∧ (exponent ≤ -1074 ∨ 2 ^ 52 ≤ (m <<< shift) / n) := by
  have target : Format.binary64.targetExponent (totalExponent m e - totalExponent n k) =
      max ((m.log2 : ℤ) - n.log2 + (e - k) - 53) (-1074) := by
    change max ((m.log2 : ℤ) + 1 + e - (n.log2 + 1 + k) - 53) (-1074) = _
    congr 1
    ring
  unfold divCore
  dsimp only
  rw [target]
  generalize ht : min (e - k) (max ((m.log2 : ℤ) - n.log2 + (e - k) - 53) (-1074)) = exponent
  refine ⟨(e - k - exponent).toNat, exponent, rfl, by omega, ?_⟩
  by_cases least : exponent ≤ -1074
  · exact .inl least
  -- The dividend is shifted until it has 53 bits more than the divisor.
  · refine .inr ((Nat.le_div_iff_mul_le hn).2 ?_)
    have long : n.log2 + 53 ≤ (m <<< (e - k - exponent).toNat).log2 := by
      rw [log2_shiftLeft hm]
      omega
    have filled : m <<< (e - k - exponent).toNat ≠ 0 := by
      rw [Nat.shiftLeft_eq]
      positivity
    calc 2 ^ 52 * n ≤ 2 ^ 52 * 2 ^ (n.log2 + 1) := Nat.mul_le_mul_left _ Nat.lt_log2_self.le
      _ = 2 ^ (n.log2 + 53) := by rw [← pow_add]; congr 1; omega
      _ ≤ m <<< (e - k - exponent).toNat := (Nat.le_log2 filled).1 long

theorem rounds_div {f g : UnpackedFloat} (hf : FiniteForm f) (hg : FiniteForm g) (nonzero : unpackedValue g ≠ 0) :
    Rounds (div .binary64 f g) (unpackedValue f / unpackedValue g) := by
  cases hg with
  | zero t => exact absurd rfl nonzero
  | @finite t n k hn cg =>
    cases hf with
    | zero s => simpa [div, unpackedValue] using (FiniteForm.zero (s / t)).rounds
    | @finite s m e hm cf =>
      obtain ⟨shift, exponent, quotient, rfl, filled⟩ := divCore_eq e k hm hn
      obtain ⟨rest, cut⟩ := cut_div (m <<< shift) hn
      have rounded : div .binary64 (.finite s m e hm) (.finite t n k hn) =
          roundWithAccuracy .binary64 (s / t) ((m <<< shift) / n) (e - k - shift)
            (accuracyOfFraction ((m <<< shift) % n) n) := by
        unfold div
        dsimp only
        rw [quotient]
      have exact : unpackedValue (.finite s m e hm) / unpackedValue (.finite t n k hn) =
          (s / t).apply 1 * (((m <<< shift : ℕ) / n : ℚ) * 2 ^ (e - k - shift)) := by
        have inverse : ((t.apply 1 : ℤ) : ℚ)⁻¹ = t.apply 1 := by
          cases t <;> simp [Sign.apply]
        have divisor : (n : ℚ) ≠ 0 := by exact_mod_cast hn.ne'
        rw [unpackedValue_finite, unpackedValue_finite, apply_div, Nat.shiftLeft_eq, zpow_sub₀ two_ne_zero,
          zpow_sub₀ two_ne_zero, zpow_natCast]
        push_cast
        field_simp
        rw [div_eq_mul_inv, inverse]
      rw [rounded, exact]
      refine rounds_roundWithAccuracy (s / t) cut ?_ ?_
      · rcases filled with least | long
        · exact .inr least
        · exact .inl (lt_of_lt_of_le (by norm_num) long)
      · unfold lastExponent
        rcases filled with least | long
        · omega
        · have bits : 52 ≤ ((m <<< shift) / n).log2 := (Nat.le_log2 (by omega)).2 long
          omega

end Formula.Number
