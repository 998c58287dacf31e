import Formula.Proofs.Compilation
import Formula.Sampler.Basic
import Mathlib.Data.List.DropRight
/-!
# Histories of a sampler

A sampler serves one `Action` after another. `effect_act` lists all that an action does to the sampler: it uses one
definition, which is in the cache or is not, or clears the cache, or changes nothing. Every function in the cache is
the one that its key compiles to, whatever was done before (`Sampler.Sound`).
-/

namespace Formula

def Subject.definition? : Subject → Option String
  | .definition text => some text
  | .compiled _ => none

namespace Sampler

inductive Action
  | compile (definition : String)
  | sample (subject : Subject) (request : RangeRequest)
  | extent (subject : Subject) (request : RangeRequest)
  | clear

/-- What an action gives to the caller, a failure included. -/
inductive Answer
  | compiled (outcome : Except ConversionError Compiled)
  | series (outcome : Except SampleError Series)
  | extent (outcome : Except SampleError Extent)
  | cleared

namespace Action

/-- The definition that an action uses. A function that is compiled already uses none. -/
def definition? : Action → Option String
  | .compile definition => some definition
  | .sample subject _ | .extent subject _ => subject.definition?
  | .clear => none

def isClear : Action → Bool
  | .clear => true
  | _ => false

end Action

def act (sampler : Sampler) : Action → Sampler × Answer
  | .compile definition =>
    let (next, report) := sampler.compile definition
    (next, .compiled report.outcome)
  | .sample subject request =>
    let (next, report) := sampler.sample subject request
    (next, .series report.outcome)
  | .extent subject request =>
    let (next, report) := sampler.extent subject request
    (next, .extent report.outcome)
  | .clear => (sampler.clear.1, .cleared)

/-- The sampler after a row of actions. -/
def run (sampler : Sampler) (actions : List Action) : Sampler :=
  actions.foldl (fun sampler action => (sampler.act action).1) sampler

/-- What a row of actions gives to the caller, one answer for each. -/
def answers (sampler : Sampler) : List Action → List Answer
  | [] => []
  | action :: rest => (sampler.act action).2 :: answers (sampler.act action).1 rest

@[simp] theorem run_concat (sampler : Sampler) (actions : List Action) (action : Action) :
    sampler.run (actions ++ [action]) = ((sampler.run actions).act action).1 := by
  simp [run]

/-! ## Uses -/

/-- The definitions that were used since the cache was cleared last, one for each use, in their order. -/
def uses (actions : List Action) : List String :=
  (actions.rtakeWhile fun action => !action.isClear).filterMap Action.definition?

@[simp] theorem uses_clear (actions : List Action) : uses (actions ++ [.clear]) = [] := by
  simp [uses, Action.isClear]

theorem uses_concat (actions : List Action) {action : Action} (h : action.isClear = false) :
    uses (actions ++ [action]) = uses actions ++ action.definition?.toList := by
  simp only [uses, List.rtakeWhile_concat, h, Bool.not_false, if_true, List.filterMap_append]
  cases hd : action.definition? <;> simp [hd]

theorem Action.not_isClear {action : Action} {definition : String} (h : action.definition? = some definition) :
    action.isClear = false := by
  cases action <;> first | rfl | cases h

/-! ## One action -/

/-- What an action does to a sampler. -/
inductive Effect (sampler : Sampler) : Action → Sampler → Prop
  | hit {action : Action} {definition : String} {compiled : Compiled} (uses : action.definition? = some definition)
      (found : sampler.cache.find? definition = some compiled) :
      Effect sampler action { sampler with cache := sampler.cache.touch definition, hits := sampler.hits + 1 }
  | miss {action : Action} {definition : String} {compiled : Compiled} (uses : action.definition? = some definition)
      (absent : sampler.cache.find? definition = none)
      (compiles : (Formula.compile definition).outcome = .ok compiled) :
      Effect sampler action
        { sampler with
          cache := sampler.cache.insert sampler.cacheSize definition compiled
          misses := sampler.misses + 1 }
  | clear : Effect sampler .clear { sampler with cache := {}, hits := 0, misses := 0 }
  /-- A function that was compiled before is sampled. -/
  | idle {action : Action} (unused : action.definition? = none) (keeps : action.isClear = false) :
      Effect sampler action sampler

theorem compile_miss {sampler : Sampler} {definition : String} {compiled : Compiled}
    (absent : sampler.cache.find? definition = none) (compiles : (Formula.compile definition).outcome = .ok compiled) :
    (sampler.compile definition).1 =
        { sampler with
          cache := sampler.cache.insert sampler.cacheSize definition compiled
          misses := sampler.misses + 1 } ∧
      (sampler.compile definition).2.outcome = .ok compiled := by
  unfold compile
  rw [absent]
  rcases hc : Formula.compile definition with ⟨outcome, log⟩
  rw [hc] at compiles
  obtain rfl : outcome = .ok compiled := compiles
  exact ⟨rfl, rfl⟩

theorem compile_hit {sampler : Sampler} {definition : String} {compiled : Compiled}
    (found : sampler.cache.find? definition = some compiled) :
    sampler.compile definition =
      ({ sampler with cache := sampler.cache.touch definition, hits := sampler.hits + 1 }, pure compiled) := by
  unfold compile
  rw [found]

theorem effect_compile (sampler : Sampler) {action : Action} {definition : String}
    (uses : action.definition? = some definition) : sampler.Effect action (sampler.compile definition).1 := by
  cases hf : sampler.cache.find? definition with
  | some compiled =>
    rw [compile_hit hf]
    exact .hit uses hf
  | none =>
    obtain ⟨compiled, hc⟩ := exists_compile definition
    rw [(compile_miss hf hc).1]
    exact .miss uses hf hc

theorem effect_act (sampler : Sampler) (action : Action) : sampler.Effect action (sampler.act action).1 := by
  cases action with
  | compile definition => exact effect_compile sampler rfl
  | sample subject request | extent subject request =>
    cases subject with
    | definition text => exact effect_compile sampler rfl
    | compiled function => exact .idle rfl rfl
  | clear => exact .clear

theorem Effect.cacheSize_eq {sampler next : Sampler} {action : Action} (h : sampler.Effect action next) :
    next.cacheSize = sampler.cacheSize := by
  cases h <;> rfl

theorem Effect.maxPoints_eq {sampler next : Sampler} {action : Action} (h : sampler.Effect action next) :
    next.maxPoints = sampler.maxPoints := by
  cases h <;> rfl

/-- A definition that is used counts as a hit iff it is in the cache. -/
theorem Effect.counts {sampler next : Sampler} {action : Action} {definition : String} (h : sampler.Effect action next)
    (hu : action.definition? = some definition) :
    (definition ∈ sampler.cache.keys → next.hits = sampler.hits + 1 ∧ next.misses = sampler.misses) ∧
    (definition ∉ sampler.cache.keys → next.hits = sampler.hits ∧ next.misses = sampler.misses + 1) := by
  cases h with
  | hit uses found =>
    obtain rfl := Option.some.inj (hu.symm.trans uses)
    exact ⟨fun _ => ⟨rfl, rfl⟩, fun hn => absurd (Cache.mem_keys_of_find? found) hn⟩
  | miss uses absent _ =>
    obtain rfl := Option.some.inj (hu.symm.trans uses)
    exact ⟨fun hm => absurd hm (Cache.find?_eq_none_iff.1 absent), fun _ => ⟨rfl, rfl⟩⟩
  | clear => cases hu
  | idle unused _ => cases hu.symm.trans unused

theorem Effect.eq_of_unused {sampler next : Sampler} {action : Action} (h : sampler.Effect action next)
    (hu : action.definition? = none) (hc : action.isClear = false) : next = sampler := by
  cases h with
  | hit uses _ | miss uses _ _ => cases hu.symm.trans uses
  | clear => cases hc
  | idle _ _ => rfl

/-! ## Runs -/

/-- What holds at the beginning and after each action holds after every run. -/
theorem run_induction (holds : List Action → Sampler → Prop) {sampler : Sampler} (start : holds [] sampler)
    (step : ∀ actions action reached next, holds actions reached → reached.Effect action next →
      holds (actions ++ [action]) next) (actions : List Action) : holds actions (sampler.run actions) := by
  induction actions using List.reverseRecOn with
  | nil => exact start
  | append_singleton actions action ih =>
    rw [run_concat]
    exact step actions action _ _ ih (effect_act _ action)

theorem cacheSize_run (sampler : Sampler) (actions : List Action) :
    (sampler.run actions).cacheSize = sampler.cacheSize :=
  run_induction (fun _ reached => reached.cacheSize = sampler.cacheSize) rfl
    (fun _ _ _ _ same effect => effect.cacheSize_eq.trans same) actions

theorem maxPoints_run (sampler : Sampler) (actions : List Action) :
    (sampler.run actions).maxPoints = sampler.maxPoints :=
  run_induction (fun _ reached => reached.maxPoints = sampler.maxPoints) rfl
    (fun _ _ _ _ same effect => effect.maxPoints_eq.trans same) actions

/-! ## Cached functions -/

/-- Every function in the cache is the one that its key compiles to. -/
def Sound (sampler : Sampler) : Prop :=
  ∀ entry ∈ sampler.cache.entries, (Formula.compile entry.1).outcome = .ok entry.2

theorem Sound.compiles {sampler : Sampler} (h : sampler.Sound) {definition : String} {compiled : Compiled}
    (found : sampler.cache.find? definition = some compiled) : (Formula.compile definition).outcome = .ok compiled :=
  h (definition, compiled) (Cache.mem_of_find? found)

theorem Sound.step {sampler next : Sampler} {action : Action} (h : sampler.Sound) (he : sampler.Effect action next) :
    next.Sound := by
  intro entry hm
  cases he with
  | hit _ _ => exact h entry (Cache.mem_touch.1 hm)
  | miss _ _ compiles =>
    rcases Cache.mem_insert hm with hm | rfl
    · exact h entry hm
    · exact compiles
  | clear => cases hm
  | idle _ _ => exact h entry hm

/-! ## New samplers -/

/-- A sampler with nothing in its cache and no calls counted. -/
structure Fresh (sampler : Sampler) : Prop where
  cache : sampler.cache = {}
  hits : sampler.hits = 0
  misses : sampler.misses = 0

/-- A sampler is made iff its bounds are positive, and these are the bounds given or those of the settings. -/
theorem new_eq_ok_iff {cacheSize maxPoints : Option Int} {sampler : Sampler} :
    new cacheSize maxPoints = .ok sampler ↔
      cacheSize.getD ({} : SamplingSettings).cacheSize = sampler.cacheSize ∧
      maxPoints.getD ({} : SamplingSettings).maxPoints = sampler.maxPoints ∧ sampler.Fresh := by
  unfold new
  dsimp only
  constructor
  · intro h
    split at h
    · split at h
      · cases h
        exact ⟨by simp only; omega, by simp only; omega, rfl, rfl, rfl⟩
      · cases h
    · cases h
  · rintro ⟨hs, hp, hc, hh, hm⟩
    have := sampler.cacheSize_pos
    have := sampler.maxPoints_pos
    rw [dif_pos (by omega), dif_pos (by omega)]
    obtain ⟨size, points, cache, hits, misses, _, _⟩ := sampler
    simp only at hs hp hc hh hm
    subst hc hh hm
    simp only [hs, hp, Int.toNat_natCast]

theorem fresh_new {cacheSize maxPoints : Option Int} {sampler : Sampler} (h : new cacheSize maxPoints = .ok sampler) :
    sampler.Fresh :=
  (new_eq_ok_iff.1 h).2.2

theorem Fresh.sound {sampler : Sampler} (h : sampler.Fresh) : sampler.Sound := by
  intro entry hm
  rw [h.cache] at hm
  cases hm

theorem Fresh.sound_run {sampler : Sampler} (h : sampler.Fresh) (actions : List Action) :
    (sampler.run actions).Sound :=
  run_induction (fun _ reached => reached.Sound) h.sound (fun _ _ _ _ sound effect => sound.step effect) actions

end Sampler

end Formula
