import Formula.Proofs.Recency
/-!
# Caches of different sizes

Samplers that differ in the size of their caches serve the same actions. What the smaller one has in its cache are the
newest definitions of the larger one, since both have the definitions used last. So whatever is a hit in the smaller
one is a hit in the larger one, and a larger cache never costs a hit (`smaller_cache_is_suffix`).
-/

namespace Formula

theorem rtake_suffix_rtake {α : Type} (row : List α) {size size' : Nat} (h : size ≤ size') :
    row.rtake size <:+ row.rtake size' := by
  refine List.suffix_of_suffix_length_le (List.drop_suffix ..) (List.drop_suffix ..) ?_
  rw [length_rtake, length_rtake]
  omega

namespace Sampler

/-! ## One action on both samplers -/

/-- The counter of hits goes up iff the definition that is used is in the cache. -/
theorem Effect.hits_succ_iff {sampler next : Sampler} {action : Action} (h : sampler.Effect action next) :
    next.hits = sampler.hits + 1 ↔
      ∃ definition, action.definition? = some definition ∧ definition ∈ sampler.cache.keys := by
  cases h with
  | @hit _ definition _ uses found => simp [uses, Cache.mem_keys_of_find? found]
  | @miss _ definition _ uses absent _ => simp [uses, Cache.find?_eq_none_iff.1 absent]
  | clear => simp [Action.definition?]
  | idle unused _ => simp [unused]

theorem Effect.hits_le {small large small' large' : Sampler} {action : Action} (hs : small.Effect action small')
    (hl : large.Effect action large') (included : small.cache.keys ⊆ large.cache.keys)
    (le : small.hits ≤ large.hits) : small'.hits ≤ large'.hits := by
  cases hs with
  | @hit _ definition _ uses found =>
    have shared := included (Cache.mem_keys_of_find? found)
    rw [((hl.counts uses).1 shared).1]
    exact Nat.succ_le_succ le
  | @miss _ definition _ uses _ _ =>
    change small.hits ≤ large'.hits
    by_cases found : definition ∈ large.cache.keys
    · rw [((hl.counts uses).1 found).1]
      exact Nat.le_succ_of_le le
    · rwa [((hl.counts uses).2 found).1]
  | clear => exact Nat.zero_le _
  | idle unused keeps => rwa [hl.eq_of_unused unused keeps]

/-! ## All actions -/

section

variable {small large : Sampler} (hs : small.Fresh) (hl : large.Fresh) (le : small.cacheSize ≤ large.cacheSize)

include hs hl le

theorem keys_run_suffix (actions : List Action) :
    (small.run actions).cache.keys <:+ (large.run actions).cache.keys := by
  rw [(hs.recent_run actions).keys, (hl.recent_run actions).keys, cacheSize_run, cacheSize_run]
  exact rtake_suffix_rtake _ le

theorem length_keys_run (actions : List Action) :
    (small.run actions).cache.keys.length = min small.cacheSize (large.run actions).cache.keys.length := by
  rw [(hs.recent_run actions).length_keys, (hl.recent_run actions).length_keys, cacheSize_run, cacheSize_run]
  omega

theorem hits_run_le (actions : List Action) : (small.run actions).hits ≤ (large.run actions).hits := by
  induction actions using List.reverseRecOn with
  | nil => exact (hs.hits.trans hl.hits.symm).le
  | append_singleton actions action ih =>
    rw [run_concat, run_concat]
    exact (effect_act _ action).hits_le (effect_act _ action) (keys_run_suffix hs hl le actions).subset ih

end

/-- After any row of actions the smaller cache is the newer end of the larger one, as long as it can be. Whatever action
comes next, if it is a hit in the smaller one it is a hit in the larger one, and since they were cleared the larger one
has had at least as many hits among the same number of uses. -/
theorem smaller_cache_is_suffix {smallSize largeSize maxPoints : Option Int} {small large : Sampler}
    (hs : new smallSize maxPoints = .ok small) (hl : new largeSize maxPoints = .ok large)
    (le : small.cacheSize ≤ large.cacheSize) (actions : List Action) :
    (small.run actions).cache.keys <:+ (large.run actions).cache.keys ∧
    (small.run actions).cache.keys.length = min small.cacheSize (large.run actions).cache.keys.length ∧
    (∀ action, ((small.run actions).act action).1.hits = (small.run actions).hits + 1 →
      ((large.run actions).act action).1.hits = (large.run actions).hits + 1) ∧
    (small.run actions).hits ≤ (large.run actions).hits ∧
    (large.run actions).misses ≤ (small.run actions).misses ∧
    (small.run actions).hits + (small.run actions).misses =
      (large.run actions).hits + (large.run actions).misses := by
  have hs := fresh_new hs
  have hl := fresh_new hl
  have suffix := keys_run_suffix hs hl le actions
  have hits := hits_run_le hs hl le actions
  have calls : (small.run actions).hits + (small.run actions).misses =
      (large.run actions).hits + (large.run actions).misses :=
    (hs.recent_run actions).calls.trans (hl.recent_run actions).calls.symm
  refine ⟨suffix, length_keys_run hs hl le actions, fun action h => ?_, hits, by omega, calls⟩
  obtain ⟨definition, uses, found⟩ := (effect_act _ action).hits_succ_iff.1 h
  exact (effect_act _ action).hits_succ_iff.2 ⟨definition, uses, suffix.subset found⟩

/-- With room for one definition, `x` is displaced before it is used again; with room for two it is still there. -/
theorem smaller_cache_is_suffix_of_two : ∃ small large,
    new (some 1) none = .ok small ∧ new (some 2) none = .ok large ∧
    small.cacheSize ≤ large.cacheSize ∧
    (small.run [.compile "x", .compile "2*x", .compile "x"]).cache.keys <:+
      (large.run [.compile "x", .compile "2*x", .compile "x"]).cache.keys ∧
    (small.run [.compile "x", .compile "2*x", .compile "x"]).hits ≤
      (large.run [.compile "x", .compile "2*x", .compile "x"]).hits := by
  have hs : new (some 1) none = .ok ⟨1, 1000000, {}, 0, 0, by decide, by decide⟩ := rfl
  have hl : new (some 2) none = .ok ⟨2, 1000000, {}, 0, 0, by decide, by decide⟩ := rfl
  obtain ⟨suffix, -, -, hits, -, -⟩ :=
    smaller_cache_is_suffix hs hl (by decide) [.compile "x", .compile "2*x", .compile "x"]
  exact ⟨_, _, hs, hl, by decide, suffix, hits⟩

end Sampler

end Formula
