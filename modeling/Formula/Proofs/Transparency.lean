import Formula.Proofs.History
/-!
# The cache does not show

`Action.answer` is what an action gives without a cache and without a history. A sampler gives the same, whatever was
done before (`answer_act`), so its answers are those of a sampler that was never used (`answers_are_fresh`).
-/

namespace Formula

namespace Subject

/-- The function that is sampled. -/
def function : Subject → Except ConversionError Compiled
  | .definition text => (compile text).outcome
  | .compiled function => .ok function

/-- The samples of a subject, or why there are none. -/
def series (subject : Subject) (request : RangeRequest) (limit : Nat) : Except SampleError Series := do
  let compiled ← subject.function.mapError .conversion
  (compiled.sample request limit).outcome

theorem series_definition {text : String} {function : Compiled} (hc : (compile text).outcome = .ok function)
    (request : RangeRequest) (limit : Nat) :
    (definition text).series request limit = (compiled function).series request limit := by
  simp only [series, Subject.function, hc]

end Subject

namespace Sampler

/-- The answer of a sampler that has no cache. -/
def Action.answer (limit : Nat) : Action → Answer
  | .compile definition => .compiled (Formula.compile definition).outcome
  | .sample subject request => .series (subject.series request limit)
  | .extent subject request =>
    .extent ((fun series => Extent.ofPoints series.points) <$> subject.series request limit)
  | .clear => .cleared

/-! ## One answer -/

section

variable {sampler : Sampler} (h : sampler.Sound)

include h

theorem outcome_compile (definition : String) :
    (sampler.compile definition).2.outcome = (Formula.compile definition).outcome := by
  obtain ⟨compiled, hc⟩ := exists_compile definition
  rw [hc]
  cases hf : sampler.cache.find? definition with
  | some cached =>
    -- What the cache has is what the definition compiles to.
    have := (h.compiles hf).symm.trans hc
    rw [compile_hit hf, Report.outcome_pure, this]
  | none => exact (compile_miss hf hc).2

theorem outcome_resolve (subject : Subject) : (sampler.resolve subject).2.outcome = subject.function := by
  cases subject with
  | definition text => exact outcome_compile h text
  | compiled function => rfl

theorem outcome_sample (subject : Subject) (request : RangeRequest) :
    (sampler.sample subject request).2.outcome = subject.series request sampler.maxPoints := by
  rw [sample, Report.outcome_bind, Report.outcome_mapError, outcome_resolve h]
  rfl

theorem outcome_extent (subject : Subject) (request : RangeRequest) :
    (sampler.extent subject request).2.outcome =
      (fun series => Extent.ofPoints series.points) <$> subject.series request sampler.maxPoints := by
  rw [extent, Report.outcome_map, outcome_sample h]

theorem answer_act (action : Action) : (sampler.act action).2 = action.answer sampler.maxPoints := by
  cases action with
  | compile definition => exact congrArg Answer.compiled (outcome_compile h definition)
  | sample subject request => exact congrArg Answer.series (outcome_sample h subject request)
  | extent subject request => exact congrArg Answer.extent (outcome_extent h subject request)
  | clear => rfl

end

/-! ## All answers -/

theorem Sound.answers_eq {sampler : Sampler} (h : sampler.Sound) (actions : List Action) :
    sampler.answers actions = actions.map (Action.answer sampler.maxPoints) := by
  induction actions generalizing sampler with
  | nil => rfl
  | cons action rest ih =>
    have effect := effect_act sampler action
    rw [answers, List.map_cons, answer_act h, ih (h.step effect), effect.maxPoints_eq]

/-- Whatever was done before, an action gives what it gives on a sampler that is new, and a definition is sampled as
the function that it compiles to. So each answer in a row is a matter of its own action. -/
theorem answers_are_fresh {cacheSize maxPoints freshSize freshPoints : Option Int} {sampler fresh : Sampler}
    (h : new cacheSize maxPoints = .ok sampler) (hf : new freshSize freshPoints = .ok fresh)
    (hm : sampler.maxPoints = fresh.maxPoints) (actions : List Action) :
    (∀ action, ((sampler.run actions).act action).2 = (fresh.act action).2) ∧
    (∀ definition, ∃ compiled, (Formula.compile definition).outcome = .ok compiled ∧ ∀ request,
      ((sampler.run actions).act (.sample (.definition definition) request)).2 =
        ((sampler.run actions).act (.sample (.compiled compiled) request)).2 ∧
      ((sampler.run actions).act (.extent (.definition definition) request)).2 =
        ((sampler.run actions).act (.extent (.compiled compiled) request)).2) ∧
    sampler.answers actions = actions.map fun action => (fresh.act action).2 := by
  have hsound := (fresh_new h).sound_run actions
  have hfresh : ∀ action, (fresh.act action).2 = action.answer sampler.maxPoints := by
    intro action
    rw [answer_act (fresh_new hf).sound, hm]
  refine ⟨fun action => ?_, fun definition => ?_, ?_⟩
  · rw [hfresh, answer_act hsound, maxPoints_run]
  · obtain ⟨compiled, hc⟩ := exists_compile definition
    refine ⟨compiled, hc, fun request => ?_⟩
    simp only [answer_act hsound, Action.answer, Subject.series_definition hc, and_self]
  · rw [(fresh_new h).sound.answers_eq]
    exact List.map_congr_left fun action _ => (hfresh action).symm

/-- A rejected definition that was compiled, displaced and compiled again gives what it gives at first. -/
theorem answers_are_fresh_rejected : ∃ sampler fresh, new (some 1) (some 5) = .ok sampler ∧
    new none (some 5) = .ok fresh ∧ sampler.maxPoints = fresh.maxPoints ∧
    ((sampler.run [.compile "x+", .compile "x", .compile "x+"]).act (.compile "x+")).2 =
      (fresh.act (.compile "x+")).2 := by
  have h : new (some 1) (some 5) = .ok ⟨1, 5, {}, 0, 0, by decide, by decide⟩ := rfl
  have hf : new none (some 5) = .ok ⟨256, 5, {}, 0, 0, by decide, by decide⟩ := rfl
  exact ⟨_, _, h, hf, rfl, (answers_are_fresh h hf rfl [.compile "x+", .compile "x", .compile "x+"]).1 _⟩

end Sampler

end Formula
