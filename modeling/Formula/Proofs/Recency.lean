import Formula.Proofs.History
import Mathlib.Data.List.Dedup
/-!
# The most recently used definitions

The definitions that were used, each once and in the order of their last uses, are `(uses actions).dedup`. The keys of
the cache are the last of these, as many as fit (`cache_holds_most_recent`): an entry that is used moves to the end,
and what is displaced is what has gone unused for longest.
-/

namespace Formula

/-! ## Rows without repetition -/

section Rows

variable {α : Type}

theorem length_rtake (row : List α) (size : Nat) : (row.rtake size).length = min size row.length := by
  rw [List.rtake, List.length_drop]
  omega

theorem rtake_of_length_le {row : List α} {size : Nat} (h : row.length ≤ size) : row.rtake size = row := by
  rw [List.rtake, Nat.sub_eq_zero_of_le h, List.drop_zero]

theorem rtake_append_of_le {front back : List α} {size : Nat} (h : size ≤ back.length) :
    (front ++ back).rtake size = back.rtake size := by
  have hl : (front ++ back).length - size = front.length + (back.length - size) := by
    rw [List.length_append]
    omega
  rw [List.rtake, hl, List.drop_length_add_append, List.rtake]

variable [DecidableEq α]

/-- A row with an element moved to its end, or put there. -/
def promote (row : List α) (x : α) : List α :=
  row.filter (· != x) ++ [x]

/-- The last use of an element is its place. -/
theorem dedup_concat (row : List α) (x : α) : (row ++ [x]).dedup = promote row.dedup x := by
  induction row with
  | nil => rfl
  | cons y row ih =>
    rw [List.cons_append]
    by_cases hy : y ∈ row
    · rw [List.dedup_cons_of_mem (by simp [hy]), ih, List.dedup_cons_of_mem hy]
    · by_cases hx : y = x
      · subst hx
        rw [List.dedup_cons_of_mem (by simp), ih, List.dedup_cons_of_notMem hy]
        simp [promote]
      · rw [List.dedup_cons_of_notMem (by simp [hy, hx]), ih, List.dedup_cons_of_notMem hy]
        simp [promote, hx]

theorem length_le_filter_bne {row : List α} (h : row.Nodup) (x : α) :
    row.length ≤ (row.filter (· != x)).length + 1 := by
  rw [← h.erase_eq_filter, List.length_erase]
  split <;> omega

theorem length_promote_of_mem {row : List α} (h : row.Nodup) {x : α} (hx : x ∈ row) :
    (promote row x).length = row.length := by
  have := List.length_pos_of_mem hx
  rw [promote, List.length_append, ← h.erase_eq_filter, List.length_erase, if_pos hx, List.length_singleton]
  omega

theorem promote_of_notMem {row : List α} {x : α} (hx : x ∉ row) : promote row x = row ++ [x] := by
  rw [promote, List.filter_eq_self.2]
  intro y hy
  simpa using ne_of_mem_of_not_mem hy hx

/-- What was cut off before an element moves to the end is cut off afterwards. -/
theorem rtake_promote_rtake {row : List α} (h : row.Nodup) (x : α) {size : Nat} (hs : 0 < size) :
    (promote (row.rtake size) x).rtake size = (promote row x).rtake size := by
  obtain ⟨size, rfl⟩ := Nat.exists_eq_succ_of_ne_zero hs.ne'
  rw [promote, promote, List.rtake_concat_succ, List.rtake_concat_succ]
  congr 1
  by_cases hle : row.length ≤ size + 1
  · rw [rtake_of_length_le hle]
  · have hsplit : row.take (row.length - (size + 1)) ++ row.rtake (size + 1) = row := List.take_append_drop ..
    -- At most one of the last elements is moved, so the others are still enough.
    have henough : size ≤ ((row.rtake (size + 1)).filter (· != x)).length := by
      have := length_le_filter_bne (h.sublist (List.drop_sublist (row.length - (size + 1)) row)) x
      have := length_rtake row (size + 1)
      simp only [List.rtake] at *
      omega
    conv_rhs => rw [← hsplit, List.filter_append, rtake_append_of_le henough]

end Rows

/-! ## One use -/

namespace Cache

variable {α : Type}

theorem keys_touch_of_mem {cache : Cache α} {key : String} (hn : cache.keys.Nodup) (hm : key ∈ cache.keys) :
    (cache.touch key).keys = promote cache.keys key := by
  rw [keys_touch, promote, List.filter_beq, List.count_eq_one_of_mem hn hm]
  rfl

theorem keys_insert_of_notMem {cache : Cache α} {key : String} (hm : key ∉ cache.keys) (size : Nat) (value : α) :
    (cache.insert size key value).keys = (promote cache.keys key).rtake size := by
  rw [keys_insert, promote_of_notMem hm, List.rtake, List.length_append]
  rfl

end Cache

namespace Sampler

/-- The keys of the cache are the last definitions used, and every use was counted. -/
structure Recent (sampler : Sampler) (used : List String) : Prop where
  keys : sampler.cache.keys = used.dedup.rtake sampler.cacheSize
  calls : sampler.hits + sampler.misses = used.length

theorem Fresh.recent {sampler : Sampler} (h : sampler.Fresh) : sampler.Recent [] where
  keys := by rw [h.cache, List.dedup_nil, List.rtake_nil, Cache.keys_empty]
  calls := by rw [h.hits, h.misses, List.length_nil]

namespace Recent

variable {sampler : Sampler} {used : List String}

theorem nodup (h : sampler.Recent used) : sampler.cache.keys.Nodup := by
  rw [h.keys]
  exact (List.nodup_dedup used).sublist (List.drop_sublist ..)

theorem length_keys (h : sampler.Recent used) :
    sampler.cache.keys.length = min sampler.cacheSize used.dedup.length := by
  rw [h.keys, length_rtake]

theorem keys_concat (h : sampler.Recent used) (definition : String) :
    (used ++ [definition]).dedup.rtake sampler.cacheSize =
      (promote sampler.cache.keys definition).rtake sampler.cacheSize := by
  rw [dedup_concat, h.keys, rtake_promote_rtake (List.nodup_dedup used) definition sampler.cacheSize_pos]

/-- A use is counted, and puts the definition behind the others; what does not fit then is dropped. -/
theorem of_use {actions : List Action} {action : Action} {definition : String} {next : Sampler}
    (h : sampler.Recent (uses actions)) (hu : action.definition? = some definition)
    (hs : next.cacheSize = sampler.cacheSize)
    (hk : next.cache.keys = (promote sampler.cache.keys definition).rtake sampler.cacheSize)
    (hc : next.hits + next.misses = sampler.hits + sampler.misses + 1) :
    next.Recent (uses (actions ++ [action])) := by
  rw [uses_concat actions (Action.not_isClear hu), hu, Option.toList_some]
  constructor
  · rw [hs, h.keys_concat, hk]
  · rw [hc, h.calls, List.length_append, List.length_singleton]

theorem step {actions : List Action} {action : Action} {next : Sampler} (h : sampler.Recent (uses actions))
    (he : sampler.Effect action next) : next.Recent (uses (actions ++ [action])) := by
  cases he with
  | @hit _ definition _ hu found =>
    have hm := Cache.mem_keys_of_find? found
    -- The definition only changes its place, so all of them still fit.
    have hle : (promote sampler.cache.keys definition).length ≤ sampler.cacheSize := by
      rw [length_promote_of_mem h.nodup hm, h.length_keys]
      exact Nat.min_le_left ..
    refine h.of_use hu rfl ?_ (Nat.add_right_comm ..)
    rw [rtake_of_length_le hle]
    exact Cache.keys_touch_of_mem h.nodup hm
  | miss hu absent _ =>
    refine h.of_use hu rfl ?_ rfl
    exact Cache.keys_insert_of_notMem (Cache.find?_eq_none_iff.1 absent) _ _
  | clear =>
    rw [uses_clear]
    exact Fresh.recent ⟨rfl, rfl, rfl⟩
  | idle unused keeps =>
    rw [uses_concat actions keeps, unused, Option.toList_none, List.append_nil]
    exact h

end Recent

theorem Fresh.recent_run {sampler : Sampler} (h : sampler.Fresh) (actions : List Action) :
    (sampler.run actions).Recent (uses actions) :=
  run_induction (fun actions reached => reached.Recent (uses actions)) h.recent
    (fun _ _ _ _ recent effect => recent.step effect) actions

/-- After any row of actions the cache has the definitions used last since it was cleared, as many as fit, each with
the function that it compiles to. A definition that is used counts as a hit iff it is one of these, and what uses no
definition and does not clear the cache changes nothing. -/
theorem cache_holds_most_recent {cacheSize maxPoints : Option Int} {sampler : Sampler}
    (h : new cacheSize maxPoints = .ok sampler) (actions : List Action) :
    cacheSize.getD ({} : SamplingSettings).cacheSize = sampler.cacheSize ∧
    (sampler.run actions).cache.keys = (uses actions).dedup.rtake sampler.cacheSize ∧
    (sampler.run actions).cache.keys.length = min sampler.cacheSize (uses actions).dedup.length ∧
    (sampler.run actions).cache.keys.Nodup ∧
    (∀ entry ∈ (sampler.run actions).cache.entries, (Formula.compile entry.1).outcome = .ok entry.2) ∧
    (sampler.run actions).hits + (sampler.run actions).misses = (uses actions).length ∧
    (∀ action definition, action.definition? = some definition →
      (definition ∈ (uses actions).dedup.rtake sampler.cacheSize →
        (sampler.run (actions ++ [action])).hits = (sampler.run actions).hits + 1 ∧
        (sampler.run (actions ++ [action])).misses = (sampler.run actions).misses) ∧
      (definition ∉ (uses actions).dedup.rtake sampler.cacheSize →
        (sampler.run (actions ++ [action])).hits = (sampler.run actions).hits ∧
        (sampler.run (actions ++ [action])).misses = (sampler.run actions).misses + 1)) ∧
    ∀ action, action.definition? = none → action.isClear = false →
      sampler.run (actions ++ [action]) = sampler.run actions := by
  obtain ⟨hgiven, -, hfresh⟩ := new_eq_ok_iff.1 h
  have hrecent := hfresh.recent_run actions
  have hsize := cacheSize_run sampler actions
  have hkeys : (sampler.run actions).cache.keys = (uses actions).dedup.rtake sampler.cacheSize := by
    rw [hrecent.keys, hsize]
  refine ⟨hgiven, hkeys, by rw [hrecent.length_keys, hsize], hrecent.nodup, hfresh.sound_run actions, hrecent.calls,
    fun action definition hu => ?_, fun action hu hc => ?_⟩
  · rw [← hkeys, run_concat]
    exact (effect_act _ action).counts hu
  · rw [run_concat]
    exact (effect_act _ action).eq_of_unused hu hc

/-- A cache of two definitions: `x` is used again before there is a third one, so `2*x` is displaced. -/
theorem cache_holds_two : ∃ sampler, new (some 2) none = .ok sampler ∧
    (sampler.run [.compile "x", .compile "2*x", .compile "x", .compile "3*x"]).cache.keys = ["x", "3*x"] ∧
    (sampler.run [.compile "x", .compile "2*x", .compile "x", .compile "3*x", .compile "2*x"]).misses =
      (sampler.run [.compile "x", .compile "2*x", .compile "x", .compile "3*x"]).misses + 1 := by
  have h : new (some 2) none = .ok ⟨2, 1000000, {}, 0, 0, by decide, by decide⟩ := rfl
  obtain ⟨-, hkeys, -, -, -, -, hcounts, -⟩ :=
    cache_holds_most_recent h [.compile "x", .compile "2*x", .compile "x", .compile "3*x"]
  have hevicted := (hcounts (.compile "2*x") "2*x" rfl).2 (by decide)
  exact ⟨_, h, hkeys.trans (by decide), hevicted.2⟩

end Sampler

end Formula
