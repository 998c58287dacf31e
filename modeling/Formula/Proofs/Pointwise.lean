import Formula.Proofs.Doubles
import Formula.Proofs.Sampling
import Formula.Proofs.Transparency
/-!
# Samples are pointwise and bounded

A sample is refused for the first check that its range does not pass (`Refusal`), and is otherwise the row of the values
at the points of the range, as many as `Counts` says and never more than the limit (`sample_is_pointwise`). Evaluation
takes no part in a failure.
-/

namespace Formula

/-! ## Counting points -/

namespace Range

structure IsFinite (range : Range) : Prop where
  x0 : range.x0.isFinite
  x1 : range.x1.isFinite
  dx : range.dx.isFinite

/-- The number of steps towards the end of a range is not negative, also where it is rounded. -/
theorem sign?_steps {range : Range} (finite : range.IsFinite) (advances : range.advances) :
    Number.sign? range.steps.toModel.unpack = some .positive := by
  have directions : range.x0 < range.x1 ∧ 0 < range.dx ∨ range.x1 < range.x0 ∧ range.dx < 0 := by
    simpa [Range.advances] using advances
  rcases directions with ⟨rises, positive⟩ | ⟨falls, negative⟩
  · obtain ⟨_, _, _, divisor⟩ := Number.unpack_of_pos finite.dx positive
    exact Number.sign?_div (Number.sign?_sub_of_lt finite.x0 finite.x1 rises).1 divisor
  · obtain ⟨_, _, _, divisor⟩ := Number.unpack_of_neg finite.dx negative
    exact Number.sign?_div (Number.sign?_sub_of_lt finite.x1 finite.x0 falls).2 divisor

end Range

theorem RangeRequest.resolve_of_finite {request : RangeRequest} (finite : request.complete.IsFinite) :
    request.resolve = .ok request.complete := by
  simp [resolve, finite.x0, finite.x1, finite.dx]

namespace Compiled

/-- The number of points of a function over a finite range. It is exact, however large. -/
inductive Counts (compiled : Compiled) (range : Range) : Except RangeError Nat → Prop
  | invalid (invalid : compiled.isValid = false) : Counts compiled range (.ok 0)
  | still (valid : compiled.isValid) (stays : range.advances = false) : Counts compiled range (.ok 1)
  | steps {steps : Nat} (valid : compiled.isValid) (advances : range.advances) (finite : range.steps.isFinite)
      (nearest : Number.Nearest (Number.value range.steps) steps) : Counts compiled range (.ok (1 + steps))
  | uncountable (valid : compiled.isValid) (advances : range.advances) (infinite : range.steps.isFinite = false) :
      Counts compiled range (.error (.uncountable range))

section

variable {compiled : Compiled} {range : Range}

theorem size_of_invalid (invalid : compiled.isValid = false) : compiled.size range = .ok 0 := by
  rw [size, invalid]
  rfl

theorem size_of_uncountable (valid : compiled.isValid) (advances : range.advances)
    (infinite : range.steps.isFinite = false) : compiled.size range = .error (.uncountable range) := by
  rw [size, if_pos valid, Range.size, if_pos advances, Number.nearestInt?_eq_none_iff.2 infinite]

theorem counts_size (compiled : Compiled) (finite : range.IsFinite) : compiled.Counts range (compiled.size range) := by
  cases valid : compiled.isValid with
  | false =>
    rw [size_of_invalid valid]
    exact .invalid valid
  | true =>
    rw [size, if_pos valid, Range.size]
    cases advances : range.advances with
    | false => exact .still valid advances
    | true =>
      rw [if_pos rfl]
      cases nearest : Number.nearestInt? range.steps with
      | none => exact .uncountable valid advances (Number.nearestInt?_eq_none_iff.1 nearest)
      | some steps =>
        have positive := Number.nearestInt?_nonneg nearest (range.sign?_steps finite advances)
        obtain ⟨count, rfl⟩ := Int.eq_ofNat_of_zero_le positive
        have countable : range.steps.isFinite := by
          rw [← Bool.not_eq_false, ← Number.nearestInt?_eq_none_iff, nearest]
          exact Option.some_ne_none _
        exact .steps valid advances countable (Number.nearest_of_nearestInt? nearest)

end

/-! ## Refused samples -/

/-- Why no sample is taken, and the text that says so. Each check is made where the ones before it are passed. -/
inductive Refusal (compiled : Compiled) (range : Range) (limit : Nat) : RangeError → String → Prop
  | x0 (infinite : range.x0.isFinite = false) :
      Refusal compiled range limit (.notFinite "x0" range.x0) s!"x0 must be finite, got {Number.exact range.x0}"
  | x1 (x0 : range.x0.isFinite) (infinite : range.x1.isFinite = false) :
      Refusal compiled range limit (.notFinite "x1" range.x1) s!"x1 must be finite, got {Number.exact range.x1}"
  | dx (x0 : range.x0.isFinite) (x1 : range.x1.isFinite) (infinite : range.dx.isFinite = false) :
      Refusal compiled range limit (.notFinite "dx" range.dx) s!"dx must be finite, got {Number.exact range.dx}"
  | uncountable (finite : range.IsFinite) (valid : compiled.isValid) (advances : range.advances)
      (infinite : range.steps.isFinite = false) :
      Refusal compiled range limit (.uncountable range)
        (s!"Sampling [{Number.exact range.x0}, {Number.exact range.x1}] with dx={Number.exact range.dx}" ++
          " needs too many points")
  | tooMany {count : Nat} (finite : range.IsFinite) (counts : compiled.size range = .ok count)
      (exceeds : limit < count) :
      Refusal compiled range limit (.tooMany range count limit)
        (s!"Sampling [{Number.exact range.x0}, {Number.exact range.x1}] with dx={Number.exact range.dx}" ++
          s!" needs {count} points, limit is {limit}")

section

variable {compiled : Compiled} {range : Range} {request : RangeRequest} {limit : Nat} {reason : RangeError}
  {text : String}

theorem Refusal.message_eq (h : compiled.Refusal range limit reason text) : reason.message = text := by
  cases h with
  | x0 | x1 | dx | uncountable => rfl
  | tooMany => simp only [RangeError.message, RangeError.subject, toString, String.append_assoc]

/-- A check that is not passed is the failure of the sample. -/
theorem Refusal.outcome_sample (h : compiled.Refusal request.complete limit reason text) :
    (compiled.sample request limit).outcome = .error (.range reason) := by
  cases h with
  | x0 infinite =>
    have unresolved : request.resolve = .error (.notFinite "x0" request.complete.x0) := by
      simp [RangeRequest.resolve, infinite]
    exact Report.outcome_ofExcept_error unresolved _ _
  | x1 x0 infinite =>
    have unresolved : request.resolve = .error (.notFinite "x1" request.complete.x1) := by
      simp [RangeRequest.resolve, x0, infinite]
    exact Report.outcome_ofExcept_error unresolved _ _
  | dx x0 x1 infinite =>
    have unresolved : request.resolve = .error (.notFinite "dx" request.complete.dx) := by
      simp [RangeRequest.resolve, x0, x1, infinite]
    exact Report.outcome_ofExcept_error unresolved _ _
  | uncountable finite valid advances infinite =>
    rw [Compiled.sample, Report.outcome_ofExcept_ok (request.resolve_of_finite finite)]
    exact Report.outcome_ofExcept_error (size_of_uncountable valid advances infinite) _ _
  | tooMany finite counts exceeds =>
    rw [Compiled.sample, Report.outcome_ofExcept_ok (request.resolve_of_finite finite),
      Report.outcome_ofExcept_ok counts, if_pos exceeds]
    rfl

/-- A range that passes all checks is finite, and has a number of points that is not too great. -/
theorem refusal_or_counts (compiled : Compiled) (range : Range) (limit : Nat) :
    (∃ reason text, compiled.Refusal range limit reason text) ∨
      range.IsFinite ∧ ∃ count, compiled.size range = .ok count ∧ count ≤ limit := by
  cases x0 : range.x0.isFinite with
  | false => exact .inl ⟨_, _, .x0 x0⟩
  | true =>
    cases x1 : range.x1.isFinite with
    | false => exact .inl ⟨_, _, .x1 x0 x1⟩
    | true =>
      cases dx : range.dx.isFinite with
      | false => exact .inl ⟨_, _, .dx x0 x1 dx⟩
      | true =>
        have finite : range.IsFinite := ⟨x0, x1, dx⟩
        have counts := compiled.counts_size finite
        cases size : compiled.size range with
        | error reason =>
          rw [size] at counts
          cases counts with
          | uncountable valid advances infinite => exact .inl ⟨_, _, .uncountable finite valid advances infinite⟩
        | ok count =>
          rcases Nat.lt_or_ge limit count with exceeds | fits
          · exact .inl ⟨_, _, .tooMany finite size exceeds⟩
          · exact .inr ⟨finite, count, rfl, fits⟩

/-- The three reasons for a refusal, without their order. -/
theorem exists_refusal_iff : (∃ reason text, compiled.Refusal range limit reason text) ↔
    ¬range.IsFinite ∨ (compiled.isValid ∧ range.advances ∧ range.steps.isFinite = false) ∨
      ∃ count, compiled.size range = .ok count ∧ limit < count := by
  constructor
  · rintro ⟨reason, text, refusal⟩
    cases refusal with
    | x0 infinite => exact .inl fun finite => Bool.false_ne_true (infinite.symm.trans finite.x0)
    | x1 _ infinite => exact .inl fun finite => Bool.false_ne_true (infinite.symm.trans finite.x1)
    | dx _ _ infinite => exact .inl fun finite => Bool.false_ne_true (infinite.symm.trans finite.dx)
    | uncountable _ valid advances infinite => exact .inr (.inl ⟨valid, advances, infinite⟩)
    | tooMany _ counts exceeds => exact .inr (.inr ⟨_, counts, exceeds⟩)
  · intro h
    rcases compiled.refusal_or_counts range limit with refusal | ⟨finite, count, counts, fits⟩
    · exact refusal
    · rcases h with infinite | ⟨valid, advances, infinite⟩ | ⟨more, counts', exceeds⟩
      · exact absurd finite infinite
      · cases counts.symm.trans (size_of_uncountable valid advances infinite)
      · obtain rfl := Except.ok.inj (counts.symm.trans counts')
        exact absurd exceeds (Nat.not_lt.2 fits)

/-! ## Taken samples -/

/-- The point at a place of a range, and the value there. -/
theorem Values.point {x0 dx : Float} {count i : Nat} {ys : List Float}
    (h : compiled.Values (Range.points x0 dx count) ys) (hi : i < count) :
    ∃ y, ((Range.points x0 dx count).zip ys)[i]? = some (x0 + Float.ofNat i * dx, y) ∧
      (compiled.evaluate (x0 + Float.ofNat i * dx)).outcome = .ok y := by
  have hx : (Range.points x0 dx count)[i]? = some (x0 + Float.ofNat i * dx) := by simp [Range.points, hi]
  obtain ⟨hlen, hval⟩ := List.forall₂_iff_get.1 h
  obtain ⟨hlt, hget⟩ := List.getElem?_eq_some_iff.1 hx
  refine ⟨ys[i], List.getElem?_zip_eq_some.2 ⟨hx, List.getElem?_eq_getElem (hlen ▸ hlt)⟩, ?_⟩
  rw [← hget]
  exact hval i hlt (hlen ▸ hlt)

/-- What a sample gives: the values at the points of a range, or the first check that the range does not pass. -/
structure Sampled (compiled : Compiled) (range : Range) (limit : Nat) (outcome : Except SampleError Series) : Prop where
  fails_iff : (∃ error, outcome = .error error) ↔
    ¬range.IsFinite ∨ (compiled.isValid ∧ range.advances ∧ range.steps.isFinite = false) ∨
      ∃ count, compiled.size range = .ok count ∧ limit < count
  /-- A failure is that of the first check that is not passed, with the text of that check. -/
  error_iff : ∀ error, outcome = .error error ↔ ∃ reason text, error = .range reason ∧ reason.message = text ∧
    compiled.Refusal range limit reason text
  counts : range.IsFinite → compiled.Counts range (compiled.size range)
  /-- Otherwise there is a series, with a point for each step and the value that the function has there. -/
  series : ∀ series, outcome = .ok series → series.name = compiled.definition ∧
    compiled.size range = .ok series.points.length ∧ series.points.length ≤ limit ∧
    ∀ i < series.points.length, ∃ y, series.points[i]? = some (range.x0 + Float.ofNat i * range.dx, y) ∧
      (compiled.evaluate (range.x0 + Float.ofNat i * range.dx)).outcome = .ok y
  empty : compiled.isValid = false → range.IsFinite → outcome = .ok { name := compiled.definition, points := [] }

section

variable {definition : String} (compiles : (compile definition).outcome = .ok compiled)

include compiles

/-- A sample that is not refused is taken. -/
theorem exists_sample {count : Nat} (finite : request.complete.IsFinite)
    (counts : compiled.size request.complete = .ok count) (fits : count ≤ limit) :
    ∃ ys, compiled.Values (Range.points request.complete.x0 request.complete.dx count) ys ∧
      (compiled.sample request limit).outcome =
        .ok { name := compiled.definition,
              points := (Range.points request.complete.x0 request.complete.dx count).zip ys } := by
  obtain ⟨ys, values⟩ := exists_values compiles (Range.points request.complete.x0 request.complete.dx count)
  exact ⟨ys, values, values.outcome_sample (request.resolve_of_finite finite) counts fits⟩

theorem sample_eq_error_iff {error : SampleError} : (compiled.sample request limit).outcome = .error error ↔
    ∃ reason text, error = .range reason ∧ reason.message = text ∧
      compiled.Refusal request.complete limit reason text := by
  constructor
  · intro failure
    rcases compiled.refusal_or_counts request.complete limit with
      ⟨reason, text, refusal⟩ | ⟨finite, count, counts, fits⟩
    · have same := Except.error.inj (failure.symm.trans refusal.outcome_sample)
      exact ⟨reason, text, same, refusal.message_eq, refusal⟩
    · obtain ⟨ys, -, taken⟩ := exists_sample compiles finite counts fits
      cases failure.symm.trans taken
  · rintro ⟨reason, text, rfl, -, refusal⟩
    exact refusal.outcome_sample

theorem sampled_sample (request : RangeRequest) (limit : Nat) :
    compiled.Sampled request.complete limit (compiled.sample request limit).outcome where
  fails_iff := by
    rw [← exists_refusal_iff]
    constructor
    · rintro ⟨error, failure⟩
      obtain ⟨reason, text, -, -, refusal⟩ := (sample_eq_error_iff compiles).1 failure
      exact ⟨reason, text, refusal⟩
    · rintro ⟨reason, text, refusal⟩
      exact ⟨_, refusal.outcome_sample⟩
  error_iff _ := sample_eq_error_iff compiles
  counts := compiled.counts_size
  series := by
    intro series success
    rcases compiled.refusal_or_counts request.complete limit with
      ⟨reason, text, refusal⟩ | ⟨finite, count, counts, fits⟩
    · cases success.symm.trans refusal.outcome_sample
    · obtain ⟨ys, values, taken⟩ := exists_sample compiles finite counts fits
      obtain rfl := Except.ok.inj (success.symm.trans taken)
      have length : ((Range.points request.complete.x0 request.complete.dx count).zip ys).length = count := by
        rw [List.length_zip, ← values.length_eq, Range.points, List.length_map, List.length_range, min_self]
      dsimp only
      rw [length]
      exact ⟨rfl, counts, fits, fun i hi => values.point hi⟩
  empty := by
    intro invalid finite
    obtain ⟨ys, -, taken⟩ := exists_sample compiles finite (size_of_invalid invalid) (Nat.zero_le limit)
    rw [taken]
    rfl

end

end

end Compiled

/-! ## Samplers -/

/-- A function is made by compiling a definition. -/
def Subject.IsMade : Subject → Prop
  | .definition _ => True
  | .compiled function => ∃ definition, (compile definition).outcome = .ok function

theorem Subject.IsMade.exists_definition {subject : Subject} (h : subject.IsMade) :
    ∃ definition compiled, subject.function = .ok compiled ∧ (compile definition).outcome = .ok compiled := by
  cases subject with
  | definition text =>
    obtain ⟨compiled, hc⟩ := exists_compile text
    exact ⟨text, compiled, hc, hc⟩
  | compiled function =>
    obtain ⟨definition, hc⟩ := h
    exact ⟨definition, function, rfl, hc⟩

namespace Sampler

/-- Whatever a sampler did before, a sample that it takes is pointwise, is bounded by its limit, and fails for no other
reason than its range. -/
theorem sample_is_pointwise {cacheSize maxPoints : Option Int} {sampler : Sampler}
    (h : new cacheSize maxPoints = .ok sampler) (actions : List Action) {subject : Subject} (made : subject.IsMade)
    (request : RangeRequest) :
    ∃ compiled, subject.function = .ok compiled ∧
      compiled.Sampled request.complete sampler.maxPoints ((sampler.run actions).sample subject request).2.outcome := by
  obtain ⟨definition, compiled, function, compiles⟩ := made.exists_definition
  refine ⟨compiled, function, ?_⟩
  rw [outcome_sample ((fresh_new h).sound_run actions), maxPoints_run, Subject.series, function]
  exact Compiled.sampled_sample compiles request sampler.maxPoints

/-- The range of the settings has eleven points. -/
theorem sample_is_pointwise_too_many : ∃ sampler,
    new none (some 3) = .ok sampler ∧ (Subject.definition "x").IsMade ∧
    ∃ error, ((sampler.run [.compile "x"]).sample (.definition "x") {}).2.outcome = .error error ∧
      error.message = "Sampling [0.0, 10.0] with dx=1.0 needs 11 points, limit is 3" := by
  have h : new none (some 3) = .ok ⟨256, 3, {}, 0, 0, by decide, by decide⟩ := rfl
  have made : (Subject.definition "x").IsMade := trivial
  obtain ⟨compiled, function, sampled⟩ := sample_is_pointwise h [.compile "x"] made {}
  have tokens : tokenize "x" = .ok [.operand .x] := by decide +kernel
  have compiles : (Formula.compile "x").outcome = .ok ⟨"x", [.operand .x], none⟩ := compile_of_convert tokens rfl
  obtain rfl := Except.ok.inj (function.symm.trans compiles)
  have valid : (⟨"x", [.operand .x], none⟩ : Compiled).isValid := rfl
  have advances : (RangeRequest.complete {}).advances := by decide
  have steps : Number.nearestInt? (RangeRequest.complete {}).steps = some 10 := by decide
  have counts : (⟨"x", [.operand .x], none⟩ : Compiled).size (RangeRequest.complete {}) = .ok 11 := by
    rw [Compiled.size, if_pos valid, Range.size, if_pos advances, steps]
    rfl
  have refusal := Compiled.Refusal.tooMany ⟨by decide, by decide, by decide⟩ counts (by decide : 3 < 11)
  refine ⟨_, h, made, _, (sampled.error_iff _).2 ⟨_, _, rfl, refusal.message_eq, refusal⟩, ?_⟩
  decide +kernel

end Sampler

end Formula
