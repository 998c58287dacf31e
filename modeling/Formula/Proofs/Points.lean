import Formula.Proofs.Arithmetic
import Formula.Proofs.Extents
import Formula.Proofs.FirstPoint
/-!
# Points

A range whose steps can be counted may still have an infinite point. The number of steps is rounded, so the last point
may lie beyond the end, by half a step and what is lost on the way (`Strides.stride_le`); a point before it does not, if
the points are not too many (`Strides.stride_le_way`). So the points of a range are finite unless its end is within
about half a step of the greatest double (`Sampler.points_are_finite`).
-/

namespace Formula

open Number (value greatest)

/-! ## Strides -/

theorem abs_turned {sign : ℚ} (unit : |sign| = 1) (q : ℚ) : |sign * q| = |q| := by
  rw [abs_mul, unit, one_mul]

/-- The way to a point. The number of the point is rounded, and then its product with a step. -/
structure Stride (step : ℚ) (i : Nat) (index stride : ℚ) : Prop where
  index_near : |index - i| ≤ i / 2 ^ 53
  stride_near : |stride - index * step| ≤ |index * step| / 2 ^ 53

namespace Stride

variable {step index stride : ℚ} {i : Nat}

theorem exact (step : ℚ) (near : |index - i| ≤ i / 2 ^ 53) : Stride step i index (index * step) := by
  refine ⟨near, ?_⟩
  rw [sub_self, abs_zero]
  positivity

theorem turn {sign : ℚ} (unit : |sign| = 1) (h : Stride step i index stride) :
    Stride (sign * step) i index (sign * stride) := by
  have turned : index * (sign * step) = sign * (index * step) := by ring
  refine ⟨h.index_near, ?_⟩
  rw [turned, ← mul_sub, abs_turned unit, abs_turned unit]
  exact h.stride_near

variable (h : Stride step i index stride)

include h

theorem index_bounds : 0 ≤ index ∧ index ≤ (1 + 1 / 2 ^ 53) * i := by
  have near := abs_le.1 h.index_near
  have : (0 : ℚ) ≤ i := i.cast_nonneg
  constructor <;> linarith

theorem bounds (positive : 0 < step) : 0 ≤ stride ∧ stride ≤ (1 + 1 / 2 ^ 53) * (index * step) := by
  have nonneg := mul_nonneg h.index_bounds.1 positive.le
  have near := abs_le.1 h.stride_near
  rw [abs_of_nonneg nonneg] at near
  constructor <;> linarith

end Stride

/-- The count of the steps on a way. The way is rounded, then its quotient by a step, then the quotient to a count. -/
structure Strides (way step rounded steps : ℚ) (count : Nat) : Prop where
  way_pos : 0 < way
  step_pos : 0 < step
  rounded_near : |rounded - way| ≤ |way| / 2 ^ 53
  steps_near : |steps - rounded / step| ≤ |rounded / step| / 2 ^ 53 + 2 ^ (-1075 : ℤ)
  count_near : |steps - count| ≤ 1 / 2

namespace Strides

variable {way step rounded steps index stride : ℚ} {count i : Nat} (h : Strides way step rounded steps count)

include h

theorem rounded_le : rounded ≤ (1 + 1 / 2 ^ 53) * way ∧ (1 - 1 / 2 ^ 53) * way ≤ rounded := by
  have near := abs_le.1 h.rounded_near
  rw [abs_of_pos h.way_pos] at near
  constructor <;> linarith

/-- The number of steps, as a product with a step. -/
theorem exists_quotient : ∃ quotient : ℚ, quotient * step = rounded ∧ 0 < quotient ∧
    count ≤ (1 + 1 / 2 ^ 53) * quotient + 1 / 2 ^ 53 + 1 / 2 ∧
    (1 - 1 / 2 ^ 53) * quotient - 1 / 2 ^ 53 - 1 / 2 ≤ count := by
  have positive : 0 < rounded := by
    have := h.rounded_le.2
    have := h.way_pos
    linarith
  have counted := abs_le.1 h.count_near
  have near := abs_le.1 h.steps_near
  have least : (2 : ℚ) ^ (-1075 : ℤ) ≤ 2 ^ (-53 : ℤ) := zpow_le_zpow_right₀ one_le_two (by decide)
  have bound : (2 : ℚ) ^ (-53 : ℤ) = 1 / 2 ^ 53 := by rw [zpow_neg, one_div, zpow_ofNat]
  rw [bound] at least
  rw [abs_of_pos (div_pos positive h.step_pos)] at near
  refine ⟨rounded / step, div_mul_cancel₀ _ h.step_pos.ne', div_pos positive h.step_pos, ?_, ?_⟩ <;> linarith

/-- Rounding the count brings no point further than by half a step beyond the end. The rest is lost on the way. -/
theorem stride_le (hi : i ≤ count) (hs : Stride step i index stride) :
    stride ≤ way + (step / 2 + (step + way) / 2 ^ 50) := by
  obtain ⟨quotient, product, -, above, -⟩ := h.exists_quotient
  have last : (i : ℚ) ≤ count := by exact_mod_cast hi
  have index_le : index ≤ (1 + 1 / 2 ^ 53) * ((1 + 1 / 2 ^ 53) * quotient + 1 / 2 ^ 53 + 1 / 2) := by
    have := hs.index_bounds.2
    linarith
  -- Half a step is due to the count, and is scaled by the errors as the way is.
  have product_le : index * step ≤ (1 + 1 / 2 ^ 53) * ((1 + 1 / 2 ^ 53) * rounded + (1 / 2 ^ 53 + 1 / 2) * step) := by
    have scaled := mul_le_mul_of_nonneg_right index_le h.step_pos.le
    rw [← product]
    linarith
  have := (hs.bounds h.step_pos).2
  have := h.rounded_le.1
  have := h.way_pos
  have := h.step_pos
  linarith

/-- A point that is not the last does not come near to the end, if there are not so many points that rounding the
number of one weighs as much as a step. -/
theorem stride_le_way (hi : i + 1 ≤ count) (few : count + 1 ≤ 2 ^ 49) (hs : Stride step i index stride) :
    index * step ≤ rounded ∧ stride ≤ way := by
  obtain ⟨quotient, product, -, above, below⟩ := h.exists_quotient
  have inner : (i : ℚ) + 1 ≤ count := by exact_mod_cast hi
  have few : (count : ℚ) + 1 ≤ 2 ^ 49 := by exact_mod_cast few
  have index_le := hs.index_bounds.2
  -- The count is at most half a step too great, so a step before it is left, less all errors.
  have short : quotient ≤ 2 ^ 49 + 1 := by linarith
  have before : index ≤ quotient - 3 / 10 := by linarith
  have product_le : index * step ≤ rounded - 3 / 10 * step := by
    have scaled := mul_le_mul_of_nonneg_right before h.step_pos.le
    rwa [sub_mul, product] at scaled
  -- Neither the error of the product nor that of the way weighs as much as what is left of the step.
  have index_weight := mul_le_mul_of_nonneg_right (by linarith : index ≤ 2 ^ 49) h.step_pos.le
  have way_weight := mul_le_mul_of_nonneg_right short h.step_pos.le
  rw [product] at way_weight
  have := (hs.bounds h.step_pos).2
  have := h.rounded_le
  have := h.way_pos
  have := h.step_pos
  constructor <;> linarith

end Strides

/-! ## Finite points -/

namespace Range

variable {range : Range}

/-- The way from the first point to the last, as it is. -/
def way (range : Range) : ℚ :=
  value range.x1 - value range.x0

/-- As far as rounding can bring the last point beyond the end of a range. -/
def overshoot (range : Range) : ℚ :=
  |value range.dx| / 2 + (|value range.dx| + |range.way|) / 2 ^ 50

/-- The end of a range is so far from the greatest double that it can be overshot. -/
structure HasRoom (range : Range) : Prop where
  way : |range.way| + range.overshoot ≤ greatest
  last : |value range.x1| + range.overshoot ≤ greatest

/-- A range goes one way, and its steps too. -/
theorem exists_direction (finite : range.IsFinite) (advances : range.advances) :
    ∃ sign : ℚ, |sign| = 1 ∧ 0 < sign * range.way ∧ 0 < sign * value range.dx := by
  have directions : range.x0 < range.x1 ∧ 0 < range.dx ∨ range.x1 < range.x0 ∧ range.dx < 0 := by
    simpa [Range.advances] using advances
  rcases directions with ⟨rises, positive⟩ | ⟨falls, negative⟩
  · have rises := Number.value_lt_of_lt finite.x0 finite.x1 rises
    have positive := Number.value_lt_of_lt (by decide) finite.dx positive
    rw [Number.value_zero] at positive
    exact ⟨1, by norm_num, by unfold way; linarith, by linarith⟩
  · have falls := Number.value_lt_of_lt finite.x1 finite.x0 falls
    have negative := Number.value_lt_of_lt finite.dx (by decide) negative
    rw [Number.value_zero] at negative
    exact ⟨-1, by norm_num, by unfold way; linarith, by linarith⟩

/-- The difference of the ends is a multiple of the least double, so it has no error of its own. -/
theorem exists_way_eq (finite : range.IsFinite) : ∃ n : ℤ, range.way = n * 2 ^ (-1074 : ℤ) := by
  obtain ⟨m, first⟩ := Number.exists_value_eq finite.x0
  obtain ⟨n, last⟩ := Number.exists_value_eq finite.x1
  refine ⟨n - m, ?_⟩
  rw [way, first, last, Int.cast_sub, sub_mul]

/-- The steps of a range are counted, as many as there are, if they can be. -/
theorem strides (finite : range.IsFinite) (advances : range.advances) (countable : range.steps.isFinite) {steps : Nat}
    (nearest : Number.Nearest (value range.steps) steps) :
    (range.x1 - range.x0).isFinite ∧ ∃ sign : ℚ, |sign| = 1 ∧
      Strides (sign * range.way) (sign * value range.dx) (sign * value (range.x1 - range.x0)) (value range.steps)
        steps := by
  obtain ⟨sign, unit, way_pos, step_pos⟩ := exists_direction finite advances
  have nonzero : value range.dx ≠ 0 := fun zero => by simp [zero] at step_pos
  have difference : (range.x1 - range.x0).isFinite := Number.isFinite_of_div nonzero countable
  refine ⟨difference, sign, unit, way_pos, step_pos, ?_, ?_, nearest.close⟩
  · obtain ⟨n, multiple⟩ := exists_way_eq finite
    have close := (((Number.rounded_sub finite.x1 finite.x0).near difference).close_of_multiple (by decide) multiple).1
    rwa [← mul_sub, abs_turned unit, abs_turned unit]
  · have near := ((Number.rounded_div difference finite.dx nonzero).near countable).abs_sub_le
    have same : sign * value (range.x1 - range.x0) / (sign * value range.dx) =
        value (range.x1 - range.x0) / value range.dx :=
      mul_div_mul_left _ _ (fun zero => by simp [zero] at unit)
    rw [same]
    exact near

/-- Every count is a finite double. -/
theorem isFinite_index {steps i : Nat} (countable : range.steps.isFinite)
    (nearest : Number.Nearest (value range.steps) steps) (hi : i ≤ steps) : (Float.ofNat i).isFinite := by
  obtain ⟨bound, whole⟩ := Number.exists_greatest_eq (by decide : (0 : ℤ) ≤ 971)
  rw [zpow_zero, mul_one] at whole
  have bounded : |((steps : ℕ) : ℤ)| ≤ bound := nearest.magnitude_le (whole ▸ Number.abs_value_le countable)
  refine (Number.rounded_ofNat i).isFinite ?_
  rw [Nat.abs_cast] at bounded ⊢
  rw [whole]
  exact_mod_cast (Int.ofNat_le.2 hi).trans bounded

/-- A product that is not too great is a finite double, with no error but that of the 53 bits. -/
theorem stride_near {index : Float} {m : ℤ} (finite : range.IsFinite) (hi : index.isFinite) (whole : value index = m)
    (bounded : |value index * value range.dx| ≤ greatest) :
    (index * range.dx).isFinite ∧
      |value (index * range.dx) - value index * value range.dx| ≤ |value index * value range.dx| / 2 ^ 53 := by
  obtain ⟨n, multiple⟩ := Number.exists_value_eq finite.dx
  have product : value index * value range.dx = (m * n : ℤ) * 2 ^ (-1074 : ℤ) := by
    rw [whole, multiple, Int.cast_mul, mul_assoc]
  have rounded := Number.rounded_mul hi finite.dx
  exact ⟨rounded.isFinite bounded, ((rounded.near (rounded.isFinite bounded)).close_of_multiple (by decide) product).1⟩

/-- How far a point may be from the start, seen in the direction of the range. A point before the last remains before
the end; the last needs room. -/
theorem exists_reach {steps i : Nat} {sign index : ℚ} (finite : range.IsFinite) (unit : |sign| = 1)
    (strides : Strides (sign * range.way) (sign * value range.dx) (sign * value (range.x1 - range.x0))
      (value range.steps) steps)
    (difference : (range.x1 - range.x0).isFinite) (index_near : |index - i| ≤ i / 2 ^ 53)
    (room : (i + 1 ≤ steps ∧ steps + 1 ≤ 2 ^ 49) ∨ i ≤ steps ∧ range.HasRoom) :
    |index * value range.dx| ≤ greatest ∧ ∃ reach, |value range.x1| + reach ≤ greatest ∧
      ∀ stride, Stride (value range.dx) i index stride →
        0 ≤ sign * stride ∧ sign * stride ≤ sign * range.way + reach := by
  have exact := (Stride.exact (value range.dx) index_near).turn unit
  have forward : |index * value range.dx| = sign * (index * value range.dx) := by
    rw [← abs_turned unit, abs_of_nonneg (exact.bounds strides.step_pos).1]
  rw [forward]
  rcases room with ⟨inner, few⟩ | ⟨counted, room⟩
  · refine ⟨?_, 0, by rw [add_zero]; exact Number.abs_value_le finite.x1, fun stride h => ?_⟩
    · have below := (strides.stride_le_way inner few exact).1
      rw [mul_left_comm] at below
      refine below.trans ((le_abs_self _).trans ?_)
      rw [abs_turned unit]
      exact Number.abs_value_le difference
    · rw [add_zero]
      exact ⟨((h.turn unit).bounds strides.step_pos).1, (strides.stride_le_way inner few (h.turn unit)).2⟩
  · have lengths : |range.way| = sign * range.way ∧ |value range.dx| = sign * value range.dx := by
      rw [← abs_turned unit, ← abs_turned unit (value range.dx), abs_of_pos strides.way_pos,
        abs_of_pos strides.step_pos]
      exact ⟨rfl, rfl⟩
    have reach : range.overshoot =
        sign * value range.dx / 2 + (sign * value range.dx + sign * range.way) / 2 ^ 50 := by
      rw [overshoot, lengths.1, lengths.2]
    refine ⟨?_, range.overshoot, room.last, fun stride h => ?_⟩
    · have below := strides.stride_le counted exact
      rw [← reach, ← lengths.1] at below
      exact below.trans room.way
    · rw [reach]
      exact ⟨((h.turn unit).bounds strides.step_pos).1, strides.stride_le counted (h.turn unit)⟩

/-- The product and the sum that make a point are finite. -/
theorem isFinite_point (finite : range.IsFinite) {steps i : Nat} (advances : range.advances)
    (countable : range.steps.isFinite) (nearest : Number.Nearest (value range.steps) steps)
    (room : (i + 1 ≤ steps ∧ steps + 1 ≤ 2 ^ 49) ∨ i ≤ steps ∧ range.HasRoom) :
    (range.x0 + Float.ofNat i * range.dx).isFinite := by
  obtain ⟨difference, sign, unit, strides⟩ := strides finite advances countable nearest
  have index := isFinite_index countable nearest (by omega : i ≤ steps)
  obtain ⟨index_near, m, whole⟩ := (Number.rounded_ofNat i).close_of_nat index
  obtain ⟨bounded, reach, last, within⟩ := exists_reach finite unit strides difference index_near room
  obtain ⟨product, near⟩ := stride_near finite index whole bounded
  obtain ⟨nonneg, below⟩ := within _ ⟨index_near, near⟩
  refine (Number.rounded_add finite.x0 product).isFinite ?_
  -- Seen in the direction of the range, the point lies between the first and the reach of the last.
  have first := abs_le.1 ((abs_turned unit (value range.x0)).le.trans (Number.abs_value_le finite.x0))
  have end_le := (le_abs_self _).trans (abs_turned unit (value range.x1)).le
  have ahead : sign * range.way = sign * value range.x1 - sign * value range.x0 := by rw [way, mul_sub]
  rw [← abs_turned unit, mul_add]
  exact abs_le.2 ⟨by linarith, by linarith⟩

/-- Which points of a range are finite. -/
structure FinitePoints (range : Range) (xs : List Float) : Prop where
  first : ∀ x ∈ xs.head?, x.isFinite
  inner : xs.length ≤ 2 ^ 49 → ∀ x ∈ xs.dropLast, x.isFinite
  all : range.HasRoom → ∀ x ∈ xs, x.isFinite

end Range

/-! ## Samples -/

namespace Compiled

variable {compiled : Compiled} {range : Range} {limit : Nat} {series : Series}
  (h : compiled.Sampled range limit (.ok series))

include h

theorem Sampled.isFinite_point {i : Nat} (hi : i < series.points.length)
    (room : i = 0 ∨ (i + 1 < series.points.length ∧ series.points.length ≤ 2 ^ 49) ∨ range.HasRoom) :
    (range.x0 + Float.ofNat i * range.dx).isFinite := by
  have finite := h.isFinite
  have counts := h.counts_series
  generalize series.points.length = count at hi room counts
  rcases room with rfl | room
  · exact Range.isFinite_first finite
  · cases counts with
    | invalid => omega
    | still =>
      obtain rfl : i = 0 := by omega
      exact Range.isFinite_first finite
    | steps valid advances countable nearest =>
      refine Range.isFinite_point finite advances countable nearest ?_
      rcases room with ⟨inner, few⟩ | room
      · exact .inl ⟨by omega, by omega⟩
      · exact .inr ⟨by omega, room⟩

theorem Sampled.point_eq {i : Nat} (hi : i < (series.points.map Prod.fst).length) :
    (series.points.map Prod.fst)[i] = range.x0 + Float.ofNat i * range.dx := by
  obtain ⟨-, -, -, points⟩ := h.series series rfl
  obtain ⟨y, point, -⟩ := points i (by simpa using hi)
  obtain ⟨_, same⟩ := List.getElem?_eq_some_iff.1 point
  rw [List.getElem_map, same]

theorem Sampled.finitePoints : range.FinitePoints (series.points.map Prod.fst) where
  first := by
    intro x member
    rw [List.head?_eq_getElem?] at member
    obtain ⟨some, rfl⟩ := List.getElem?_eq_some_iff.1 member
    rw [h.point_eq some]
    exact h.isFinite_point (by simpa using some) (.inl rfl)
  inner := by
    intro few x member
    rw [List.length_map] at few
    obtain ⟨i, hi, rfl⟩ := List.mem_iff_getElem.1 member
    rw [List.length_dropLast, List.length_map] at hi
    rw [List.getElem_dropLast, h.point_eq]
    exact h.isFinite_point (by omega) (.inr (.inl ⟨by omega, few⟩))
  all := by
    intro room x member
    obtain ⟨i, hi, rfl⟩ := List.mem_iff_getElem.1 member
    rw [h.point_eq]
    exact h.isFinite_point (by simpa using hi) (.inr (.inr room))

end Compiled

namespace Sampler

/-- The points of a series are finite if the range is not at the limits of the doubles, and so are the bounds of their
extent. If it is, the last point may be infinite, and only the last, unless there are more points than can be told
apart. -/
theorem points_are_finite {cacheSize maxPoints : Option Int} {sampler : Sampler}
    (h : new cacheSize maxPoints = .ok sampler) (actions : List Action) {subject : Subject} (made : subject.IsMade)
    {request : RangeRequest} {series : Series}
    (taken : ((sampler.run actions).sample subject request).2.outcome = .ok series) :
    request.complete.FinitePoints (series.points.map Prod.fst) ∧ ∃ extent,
      ((sampler.run actions).extent subject request).2.outcome = .ok extent ∧
      (request.complete.HasRoom → extent.minX.isFinite ∧ extent.maxX.isFinite) := by
  obtain ⟨compiled, -, sampled⟩ := exists_sampled h actions made taken
  have points := sampled.finitePoints
  refine ⟨points, Extent.ofPoints series.points, ?_, fun room => Extent.isFinite_ofPoints fun point member => ?_⟩
  · have sound := (fresh_new h).sound_run actions
    rw [outcome_sample sound] at taken
    rw [outcome_extent sound, taken]
    rfl
  · exact points.all room point.1 (List.mem_map_of_mem member)

theorem compile_one : (Formula.compile "1").outcome = .ok { definition := "1", code := [.operand ⟨"1", some 1⟩] } := by
  have tokens : tokenize "1" = .ok [.operand ⟨"1", some 1⟩] := by decide +kernel
  exact compile_of_convert tokens rfl

/-- The range of the settings has room. -/
theorem hasRoom_settings : (RangeRequest.complete {}).HasRoom := by
  have first : value (RangeRequest.complete {}).x0 = 0 := Number.value_zero
  have last : value (RangeRequest.complete {}).x1 = 10 := ((Number.rounded_ofNat 10).eq_of_lt (by norm_num)).2
  have step : value (RangeRequest.complete {}).dx = 1 := ((Number.rounded_ofNat 1).eq_of_lt (by norm_num)).2
  constructor <;> refine le_trans ?_ Number.two_pow_le_greatest <;>
    rw [Range.overshoot, Range.way, first, last, step] <;> norm_num

theorem points_are_finite_settings : ∃ sampler, ∃ series : Series, new none none = .ok sampler ∧
    (Subject.definition "1").IsMade ∧
    ((sampler.run [.compile "x"]).sample (.definition "1") {}).2.outcome = .ok series ∧
    (RangeRequest.complete {}).HasRoom ∧ ∀ x ∈ series.points.map Prod.fst, x.isFinite := by
  have h : new none none = .ok ⟨256, 1000000, {}, 0, 0, by decide, by decide⟩ := rfl
  have made : (Subject.definition "1").IsMade := trivial
  have taken : ((run ⟨256, 1000000, {}, 0, 0, by decide, by decide⟩ [.compile "x"]).sample (.definition "1")
      {}).2.outcome = .ok ⟨"1", (List.range 11).map fun i => (Float.ofNat i, 1)⟩ := by
    rw [outcome_sample ((fresh_new h).sound_run [.compile "x"]), maxPoints_run, Subject.series, Subject.function,
      compile_one]
    rfl
  obtain ⟨points, -⟩ := points_are_finite h [.compile "x"] made taken
  exact ⟨_, _, h, made, taken, hasRoom_settings, points.all hasRoom_settings⟩

/-- One step and a half are two steps, which are too many here. -/
theorem last_point_overflows : ∃ sampler compiled, ∃ series : Series, ∃ extent, new none none = .ok sampler ∧
    (Formula.compile "1").outcome = .ok compiled ∧ compiled.isValid ∧
    (sampler.sample (.definition "1") ⟨some 0, some 1.7e308, some 1.1e308⟩).2.outcome = .ok series ∧
    series.points.map (fun point => point.1.isFinite) = [true, true, false] ∧
    (sampler.extent (.definition "1") ⟨some 0, some 1.7e308, some 1.1e308⟩).2.outcome = .ok extent ∧
    extent.maxX.isFinite = false := by
  have h : new none none = .ok ⟨256, 1000000, {}, 0, 0, by decide, by decide⟩ := rfl
  have last : (1.7e308 : Float) = Float.ofBits 0x7fee42d130773b76 := by decide +kernel
  have step : (1.1e308 : Float) = Float.ofBits 0x7fe394a579b68fe3 := by decide +kernel
  have taken : (Subject.definition "1").series ⟨some 0, some 1.7e308, some 1.1e308⟩ 1000000 =
      .ok ⟨"1", [(0, 1), (1.1e308, 1), (1 / 0, 1)]⟩ := by
    rw [Subject.series, Subject.function, compile_one, last, step]
    rfl
  refine ⟨_, _, _, Extent.ofPoints [(0, 1), (1.1e308, 1), (1 / 0, 1)], h, compile_one, rfl,
    (outcome_sample (fresh_new h).sound _ _).trans taken, ?_, ?_, ?_⟩
  · decide +kernel
  · rw [outcome_extent (fresh_new h).sound, taken]
    rfl
  · rw [step]
    decide

end Sampler

end Formula
