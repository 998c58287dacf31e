import Formula.Proofs.Packing
import Formula.Proofs.Pointwise
/-!
# The first point

The points of a range are sums, and the first of them is that of the start and no step at all. It is the start itself,
bit for bit, but for one case: the sum of the negative zero and a positive one is positive (`Range.first_eq`).
-/

namespace Formula

namespace Number

open Float.Model (UnpackedFloat)
open Float.Model.UnpackedFloat

variable {x y : Float} {sign : Sign}

theorem ofModel_pack_unpack (h : x.isFinite) : Float.ofModel (.pack x.toModel.unpack) = x := by
  rcases x with ⟨⟨bits, valid⟩⟩
  have same : pack .binary64 (unpack .binary64 bits.toBitVec) = bits.toBitVec := pack_unpack h
  simp only [Float.Model.pack, Float.Model.unpack, same, UInt64.ofBitVec_toBitVec]

theorem FiniteForm.zero_mul {f : UnpackedFloat} (hf : FiniteForm f) (h : sign? f = some sign) :
    mul .binary64 (.zero .positive) f = .zero sign := by
  cases hf with
  | zero s =>
    obtain rfl := Option.some.inj h
    cases s <;> rfl
  | finite s =>
    obtain rfl := Option.some.inj h
    cases s <;> rfl

/-- The product of zero and a double is a zero with the sign of the double. -/
theorem zero_mul_eq (hx : x.isFinite) (h : sign? x.toModel.unpack = some sign) :
    (0 * x).toModel.unpack = .zero sign := by
  have product := (finiteForm hx).zero_mul h
  change unpack .binary64 (pack .binary64 (mul .binary64 (.zero .positive) x.toModel.unpack)) = .zero sign
  rw [product, unpack_pack_zero]

theorem add_eq_of_unpack (hy : y.toModel.unpack = .zero sign) :
    x + y = Float.ofModel (.pack (add .binary64 x.toModel.unpack (.zero sign))) := by
  rw [← hy]
  rfl

/-- A zero changes no double but the negative zero. -/
theorem add_zero_eq (hx : x.isFinite) (hy : y.toModel.unpack = .zero sign) (h : ¬(x = -0 ∧ sign = .positive)) :
    x + y = x := by
  have whole := ofModel_pack_unpack hx
  have sum : add .binary64 x.toModel.unpack (.zero sign) = x.toModel.unpack := by
    cases hu : x.toModel.unpack with
    | notANumber | infinity =>
      have form := finiteForm hx
      rw [hu] at form
      cases form
    | finite => rfl
    | zero s =>
      -- Zeros of different signs have a positive sum.
      cases s with
      | positive => cases sign <;> rfl
      | negative =>
        cases sign with
        | negative => rfl
        | positive =>
          rw [hu] at whole
          exact absurd ⟨whole.symm.trans rfl, rfl⟩ h
  rw [add_eq_of_unpack hy, sum, whole]

theorem negative_zero_add (hy : y.toModel.unpack = .zero .positive) : -0 + y = 0 := by
  rw [add_eq_of_unpack hy]
  rfl

theorem sign?_of_isFinite (hx : x.isFinite) : ∃ sign, sign? x.toModel.unpack = some sign := by
  cases hu : x.toModel.unpack with
  | notANumber =>
    have form := finiteForm hx
    rw [hu] at form
    cases form
  | infinity sign | zero sign | finite sign => exact ⟨sign, rfl⟩

end Number

namespace Range

variable {range : Range}

/-- The range starts at the negative zero, in steps that are not negative. -/
def losesSign (range : Range) : Prop :=
  range.x0 = -0 ∧ Number.sign? range.dx.toModel.unpack = some .positive

/-- The point from which a range starts, as it is sampled. -/
theorem first_eq (finite : range.IsFinite) (keeps : ¬range.losesSign) :
    range.x0 + Float.ofNat 0 * range.dx = range.x0 := by
  obtain ⟨sign, h⟩ := Number.sign?_of_isFinite finite.dx
  refine Number.add_zero_eq finite.x0 (Number.zero_mul_eq finite.dx h) ?_
  rintro ⟨zero, rfl⟩
  exact keeps ⟨zero, h⟩

theorem first_eq_zero (finite : range.IsFinite) (loses : range.losesSign) :
    range.x0 + Float.ofNat 0 * range.dx = 0 := by
  rw [loses.1]
  exact Number.negative_zero_add (Number.zero_mul_eq finite.dx loses.2)

theorem isFinite_first (finite : range.IsFinite) : (range.x0 + Float.ofNat 0 * range.dx).isFinite := by
  by_cases loses : range.losesSign
  · rw [first_eq_zero finite loses]
    decide
  · rw [first_eq finite loses]
    exact finite.x0

end Range

/-! ## The first sample -/

namespace Compiled

variable {compiled : Compiled} {range : Range} {limit : Nat} {series : Series}

/-- A range that is sampled is finite. -/
theorem Sampled.isFinite (h : compiled.Sampled range limit (.ok series)) : range.IsFinite := by
  by_contra infinite
  obtain ⟨error, failure⟩ := h.fails_iff.2 (.inl infinite)
  cases failure

theorem Sampled.counts_series (h : compiled.Sampled range limit (.ok series)) :
    compiled.Counts range (.ok series.points.length) := by
  obtain ⟨-, size, -⟩ := h.series series rfl
  rw [← size]
  exact h.counts h.isFinite

/-- The first sample of a function that is valid. -/
theorem Sampled.first (h : compiled.Sampled range limit (.ok series)) (valid : compiled.isValid) :
    ∃ y rest, series.points = (range.x0 + Float.ofNat 0 * range.dx, y) :: rest ∧
      (compiled.evaluate (range.x0 + Float.ofNat 0 * range.dx)).outcome = .ok y := by
  obtain ⟨-, -, -, points⟩ := h.series series rfl
  have some : 0 < series.points.length := by
    have counts := h.counts_series
    generalize series.points.length = count at counts
    cases counts with
    | invalid invalid => exact absurd (invalid.symm.trans valid) Bool.false_ne_true
    | still => exact Nat.one_pos
    | steps => omega
  obtain ⟨y, first, evaluated⟩ := points 0 some
  cases hp : series.points with
  | nil =>
    rw [hp] at some
    cases some
  | cons point rest =>
    rw [hp] at first
    obtain rfl := Option.some.inj first
    exact ⟨y, rest, rfl, evaluated⟩

end Compiled

namespace Sampler

/-- A series that a sampler gives is one of the function that is compiled. -/
theorem exists_sampled {cacheSize maxPoints : Option Int} {sampler : Sampler}
    (h : new cacheSize maxPoints = .ok sampler) (actions : List Action) {subject : Subject} (made : subject.IsMade)
    {request : RangeRequest} {series : Series}
    (taken : ((sampler.run actions).sample subject request).2.outcome = .ok series) :
    ∃ compiled, subject.function = .ok compiled ∧
      compiled.Sampled request.complete sampler.maxPoints (.ok series) := by
  obtain ⟨definition, compiled, function, compiles⟩ := made.exists_definition
  rw [outcome_sample ((fresh_new h).sound_run actions), maxPoints_run, Subject.series, function] at taken
  have sampled := Compiled.sampled_sample compiles request sampler.maxPoints
  rw [show (compiled.sample request sampler.maxPoints).outcome = .ok series from taken] at sampled
  exact ⟨compiled, function, sampled⟩

/-- Samples start at the first point of the range, but at zero for the negative zero, if the step is not negative. -/
theorem sample_starts_at_x0 {cacheSize maxPoints : Option Int} {sampler : Sampler}
    (h : new cacheSize maxPoints = .ok sampler) (actions : List Action) {subject : Subject} (made : subject.IsMade)
    {request : RangeRequest} {series : Series}
    (taken : ((sampler.run actions).sample subject request).2.outcome = .ok series) :
    ∃ compiled, subject.function = .ok compiled ∧ (compiled.isValid → ∃ y rest,
      (¬request.complete.losesSign → series.points = (request.complete.x0, y) :: rest ∧
        (compiled.evaluate request.complete.x0).outcome = .ok y) ∧
      (request.complete.losesSign → series.points = (0, y) :: rest ∧ (compiled.evaluate 0).outcome = .ok y)) := by
  obtain ⟨compiled, function, sampled⟩ := exists_sampled h actions made taken
  refine ⟨compiled, function, fun valid => ?_⟩
  have finite := sampled.isFinite
  obtain ⟨y, rest, points, evaluated⟩ := sampled.first valid
  refine ⟨y, rest, fun keeps => ?_, fun loses => ?_⟩
  · rw [Range.first_eq finite keeps] at points evaluated
    exact ⟨points, evaluated⟩
  · rw [Range.first_eq_zero finite loses] at points evaluated
    exact ⟨points, evaluated⟩

theorem compile_reciprocal : (Formula.compile "1/x").outcome =
    .ok { definition := "1/x", code := [.operand ⟨"1", some 1⟩, .operand .x, Kind.divide.token] } := by
  have tokens : tokenize "1/x" = .ok [.operand ⟨"1", some 1⟩, Kind.divide.token, .operand .x] := by decide +kernel
  exact compile_of_convert tokens rfl

/-- A step backwards keeps the sign of the negative zero. -/
theorem sample_starts_at_x0_negative_zero : ∃ sampler compiled, ∃ series : Series, new none none = .ok sampler ∧
    (Subject.definition "1/x").IsMade ∧
    ((sampler.run [.clear]).sample (.definition "1/x") ⟨some (-0), some (-1), some (-1)⟩).2.outcome = .ok series ∧
    (Subject.definition "1/x").function = .ok compiled ∧ compiled.isValid ∧ ¬(Range.mk (-0) (-1) (-1)).losesSign ∧
    ∃ y rest, series.points = (-0, y) :: rest ∧ (compiled.evaluate (-0)).outcome = .ok y := by
  have h : new none none = .ok ⟨256, 1000000, {}, 0, 0, by decide, by decide⟩ := rfl
  have made : (Subject.definition "1/x").IsMade := trivial
  have taken : ((run ⟨256, 1000000, {}, 0, 0, by decide, by decide⟩ [.clear]).sample (.definition "1/x")
      ⟨some (-0), some (-1), some (-1)⟩).2.outcome = .ok ⟨"1/x", [(-0, -(1 / 0)), (-1, -1)]⟩ := by
    rw [outcome_sample ((fresh_new h).sound_run [.clear]), Subject.series, Subject.function, compile_reciprocal]
    rfl
  have keeps : ¬(Range.mk (-0) (-1) (-1)).losesSign := by
    rintro ⟨-, positive⟩
    have negative : Number.sign? (-1 : Float).toModel.unpack = some .negative := rfl
    cases negative.symm.trans positive
  obtain ⟨compiled, function, starts⟩ := sample_starts_at_x0 h [.clear] made taken
  have valid : compiled.isValid := by
    obtain rfl := Except.ok.inj (function.symm.trans compile_reciprocal)
    rfl
  obtain ⟨y, rest, first, -⟩ := starts valid
  exact ⟨_, compiled, _, h, made, taken, function, valid, keeps, y, rest, first keeps⟩

/-- The sign of the start is lost where no step is added to it, and the value is another one. -/
theorem sample_forgets_negative_zero : ∃ sampler compiled, ∃ series : Series, new none none = .ok sampler ∧
    (Formula.compile "1/x").outcome = .ok compiled ∧ compiled.isValid ∧
    (sampler.sample (.definition "1/x") ⟨some (-0), some (-0), some 1⟩).2.outcome = .ok series ∧
    series.points.map Prod.snd = [1 / 0] ∧ (compiled.evaluate (-0)).outcome = .ok (-(1 / 0)) ∧
    (1 / 0 : Float) ≠ -(1 / 0) ∧ (1 / 0 : Float).isNaN = false := by
  have h : new none none = .ok ⟨256, 1000000, {}, 0, 0, by decide, by decide⟩ := rfl
  refine ⟨_, _, ⟨"1/x", [(0, 1 / 0)]⟩, h, compile_reciprocal, rfl, ?_, rfl, rfl, by decide, by decide⟩
  rw [outcome_sample (fresh_new h).sound, Subject.series, Subject.function, compile_reciprocal]
  rfl

end Sampler

end Formula
