import Formula.Proofs.Doubles
/-!
# Packing

Packing and unpacking undo each other for all finite doubles in their canonical form (`unpack_pack`, `pack_unpack`). A
double whose exponent is too great is packed as an infinite one (`pack_of_overflow`).
-/

namespace Formula.Number

open Float.Model (UnpackedFloat Format)
open Float.Model.UnpackedFloat

/-! ## Fields -/

/-- A double is made of its sign, its exponent and its significand. -/
theorem packComponents_unpack (b : BitVec Format.binary64.numBits) :
    packComponents .binary64 (Sign.ofBitVec (unpackSign b)) (unpackExponent b) (unpackMantissa b) = b := by
  have sign : (Sign.ofBitVec (unpackSign b)).toBitVec = unpackSign b := by
    generalize unpackSign b = s
    revert s
    decide
  rw [packComponents, sign]
  refine BitVec.eq_of_getLsbD_eq fun i hi => ?_
  have hi : i < 64 := hi
  simp only [BitVec.getLsbD_append, unpackSign, unpackExponent, unpackMantissa, BitVec.getLsbD_cast,
    BitVec.getLsbD_extract]
  split
  · simp
    omega
  · next low =>
    have place : 52 + (i - 52) = i := by omega
    split
    · simp [place]
      omega
    · have place : 52 + 11 + (i - 52 - 11) = i := by omega
      simp [place]
      omega

theorem implicit_toNat (mantissa : BitVec 52) : (1#1 ++ mantissa).toNat = 2 ^ 52 + mantissa.toNat := by
  rw [BitVec.toNat_append, ← Nat.shiftLeft_add_eq_or_of_lt mantissa.isLt]
  rfl

/-- Below the full significands the exponent is the least one and is not written. -/
theorem pack_of_lt (sign : Sign) {m : Nat} (hm : 0 < m) (h : m < 2 ^ 52) :
    pack .binary64 (.finite sign m (-1074) hm) = packComponents .binary64 sign 0#11 (BitVec.ofNat 52 m) := by
  have short : m.log2 + 1 ≠ Format.binary64.mantissaBits := by
    have := (Nat.log2_lt hm.ne').2 h
    change m.log2 + 1 ≠ 53
    omega
  unfold pack
  dsimp only
  rw [if_neg (by decide), if_neg short]

/-- A full significand is written without its first bit. -/
theorem pack_of_le (sign : Sign) {m : Nat} {e : ℤ} (hm : 0 < m) (full : 2 ^ 52 ≤ m) (h : Canonical m e) :
    pack .binary64 (.finite sign m e hm) =
      packComponents .binary64 sign (BitVec.ofNat 11 (e + 1075).toNat) (BitVec.ofNat 52 m) := by
  have long : m.log2 + 1 = Format.binary64.mantissaBits := by
    rw [(Nat.log2_eq_iff hm.ne').2 ⟨full, h.significand⟩]
    rfl
  have biased : e + Format.binary64.exponentBias + Format.binary64.mantissaBitsWithoutImplicit = e + 1075 := by
    rw [add_assoc]
    rfl
  have fits : ¬ 2 ^ Format.binary64.exponentBits ≤ (e + 1075).toNat + 1 := by
    have := h.greatest
    change ¬ 2 ^ 11 ≤ _
    omega
  unfold pack
  dsimp only
  rw [biased, if_neg fits, if_pos long]

theorem pack_of_overflow (sign : Sign) {m : Nat} {e : ℤ} (hm : 0 < m) (h : 971 < e) :
    pack .binary64 (.finite sign m e hm) = packedInfinity .binary64 sign := by
  have biased : e + Format.binary64.exponentBias + Format.binary64.mantissaBitsWithoutImplicit = e + 1075 := by
    rw [add_assoc]
    rfl
  have exceeds : 2 ^ Format.binary64.exponentBits ≤ (e + 1075).toNat + 1 := by
    change 2 ^ 11 ≤ _
    omega
  unfold pack
  dsimp only
  rw [biased, if_pos exceeds]

/-! ## Both ways -/

/-- Packing undoes unpacking. -/
theorem pack_unpack {b : BitVec Format.binary64.numBits} (h : (unpack .binary64 b).isFinite) :
    pack .binary64 (unpack .binary64 b) = b := by
  have whole := packComponents_unpack b
  revert h
  unfold unpack
  dsimp only
  intro h
  split
  · next infinite =>
    rw [if_pos infinite] at h
    split at h <;> cases h
  · next finite =>
    split
    · next small =>
      split
      · next empty =>
        rw [small, empty] at whole
        exact whole
      · next full =>
        have least : ((unpackExponent b).toNat : ℤ) -
            (Format.binary64.exponentBias + Format.binary64.mantissaBitsWithoutImplicit) + 1 = -1074 := by
          rw [small]
          rfl
        rw [least, pack_of_lt _ _ (unpackMantissa b).isLt, BitVec.ofNat_toNat, BitVec.setWidth_eq, ← small]
        exact whole
    · next large =>
      have exponent : ((unpackExponent b).toNat : ℤ) -
          (Format.binary64.exponentBias + Format.binary64.mantissaBitsWithoutImplicit) =
            (unpackExponent b).toNat - 1075 := rfl
      have significand := implicit_toNat (unpackMantissa b)
      have short : (unpackMantissa b).toNat < 2 ^ 52 := (unpackMantissa b).isLt
      have wide : (unpackExponent b).toNat < 2 ^ 11 := (unpackExponent b).isLt
      have positive : (unpackExponent b).toNat ≠ 0 := fun h => large (BitVec.eq_of_toNat_eq h)
      have less : (unpackExponent b).toNat ≠ 2 ^ 11 - 1 := fun h => finite (BitVec.eq_of_toNat_eq h)
      rw [exponent, pack_of_le _ _ (by omega) ⟨by omega, by omega, by omega, .inl (by omega)⟩, significand]
      have written : ((unpackExponent b).toNat - 1075 + 1075 : ℤ).toNat = (unpackExponent b).toNat := by omega
      have cut : BitVec.ofNat 52 (2 ^ 52 + (unpackMantissa b).toNat) = unpackMantissa b := by
        refine BitVec.eq_of_toNat_eq ?_
        rw [BitVec.toNat_ofNat, Nat.add_mod_left, Nat.mod_eq_of_lt short]
      rw [written, cut, BitVec.ofNat_toNat, BitVec.setWidth_eq]
      exact whole

/-- Unpacking undoes packing, if the exponent is not too great. -/
theorem unpack_pack (sign : Sign) {m : Nat} {e : ℤ} (hm : 0 < m) (h : Canonical m e) :
    unpack .binary64 (pack .binary64 (.finite sign m e hm)) = .finite sign m e hm := by
  have significand := h.significand
  by_cases full : 2 ^ 52 ≤ m
  · have least := h.least
    have greatest := h.greatest
    have exponent : (BitVec.ofNat 11 (e + 1075).toNat).toNat = (e + 1075).toNat := by
      rw [BitVec.toNat_ofNat, Nat.mod_eq_of_lt (by omega)]
    have finite : BitVec.ofNat 11 (e + 1075).toNat ≠ -1#11 := by
      intro infinite
      have := exponent.symm.trans (congrArg BitVec.toNat infinite)
      change _ = 2047 at this
      omega
    have large : BitVec.ofNat 11 (e + 1075).toNat ≠ 0#11 := by
      intro small
      have := exponent.symm.trans (congrArg BitVec.toNat small)
      change _ = 0 at this
      omega
    have cut : (BitVec.ofNat 52 m).toNat = m - 2 ^ 52 := by
      rw [BitVec.toNat_ofNat]
      omega
    rw [pack_of_le sign hm full h]
    unfold unpack
    simp only [unpackExponent_packComponents, unpackMantissa_packComponents, unpackSign_packComponents,
      Sign.ofBitVec_toBitVec]
    rw [if_neg finite, if_neg large]
    congr 1
    · rw [implicit_toNat, cut]
      omega
    · rw [exponent]
      change ((e + 1075).toNat : ℤ) - 1075 = e
      omega
  · obtain rfl := h.full.resolve_left full
    have written : (BitVec.ofNat 52 m).toNat = m := by
      rw [BitVec.toNat_ofNat, Nat.mod_eq_of_lt (by omega)]
    have nonempty : BitVec.ofNat 52 m ≠ 0#52 := by
      intro empty
      have := written.symm.trans (congrArg BitVec.toNat empty)
      change _ = 0 at this
      omega
    rw [pack_of_lt sign hm (by omega)]
    unfold unpack
    simp only [unpackExponent_packComponents, unpackMantissa_packComponents, unpackSign_packComponents,
      Sign.ofBitVec_toBitVec]
    rw [if_neg (by decide), if_pos trivial, dif_neg nonempty]
    congr 1

theorem unpack_pack_zero (sign : Sign) : unpack .binary64 (pack .binary64 (.zero sign)) = .zero sign := by
  cases sign <;> rfl

theorem unpack_packedInfinity (sign : Sign) : unpack .binary64 (packedInfinity .binary64 sign) = .infinity sign := by
  cases sign <;> rfl

theorem unpack_packedNaN : unpack .binary64 (packedNaN .binary64) = .notANumber := rfl

end Formula.Number
