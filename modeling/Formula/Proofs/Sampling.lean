import Formula.Proofs.Compilation
import Formula.Series.Basic
/-!
# Values at many points

What a definition compiles to has a value at every point (`exists_value`), so it has them at all points of a row, and
over every range that is finite and has not too many points.
-/

namespace Formula

namespace Report

variable {ε ε' α β : Type}

theorem outcome_bind_ok {first : Report ε α} {value : α} (h : first.outcome = .ok value) (next : α → Report ε β) :
    (first >>= next).outcome = (next value).outcome := by
  rw [outcome_bind, h]
  rfl

theorem outcome_mapError_ok {report : Report ε α} {value : α} (h : report.outcome = .ok value) (f : ε → ε') :
    (report.mapError f).outcome = .ok value := by
  rw [outcome_mapError, h]
  rfl

/-- A check that is passed leaves the rest to be done. -/
theorem outcome_ofExcept_ok {outcome : Except ε α} {value : α} (h : outcome = .ok value) (f : ε → ε')
    (next : α → Report ε' β) : ((ofExcept outcome).mapError f >>= next).outcome = (next value).outcome := by
  rw [h]
  rfl

/-- A check that is not passed is the end. -/
theorem outcome_ofExcept_error {outcome : Except ε α} {error : ε} (h : outcome = .error error) (f : ε → ε')
    (next : α → Report ε' β) : ((ofExcept outcome).mapError f >>= next).outcome = .error (f error) := by
  rw [h]
  rfl

end Report

/-- What is compiled is evaluated everywhere. -/
theorem exists_value {definition : String} {compiled : Compiled} (h : (compile definition).outcome = .ok compiled)
    (x : Float) : ∃ y, (compiled.evaluate x).outcome = .ok y := by
  rcases compiled_cases h with ⟨_, _, tree, hc, hp, rfl⟩ | ⟨_, -, rfl⟩
  · rw [evaluate_ofTree hc hp]
    exact ⟨_, rfl⟩
  · exact ⟨_, rfl⟩

namespace Compiled

variable {compiled : Compiled} {xs ys : List Float}

/-- The values of a function at points, one for each and in their order. -/
def Values (compiled : Compiled) (xs ys : List Float) : Prop :=
  List.Forall₂ (fun x y => (compiled.evaluate x).outcome = .ok y) xs ys

theorem Values.outcome_evaluateFrom (h : compiled.Values xs ys) (done : List Float) (log : Log) :
    (compiled.evaluateFrom done log xs).outcome = .ok (done.reverse ++ ys) := by
  induction h generalizing done log with
  | nil => rw [evaluateFrom, List.append_nil]
  | @cons x y xs ys head _ ih =>
    rcases hx : compiled.evaluate x with ⟨outcome, more⟩
    rw [hx] at head
    obtain rfl : outcome = .ok y := head
    rw [evaluateFrom, hx]
    simpa using ih (y :: done) (log ++ more)

theorem Values.outcome_evaluateAll (h : compiled.Values xs ys) : (compiled.evaluateAll xs).outcome = .ok ys :=
  h.outcome_evaluateFrom [] []

theorem exists_values {definition : String} (h : (compile definition).outcome = .ok compiled) (xs : List Float) :
    ∃ ys, compiled.Values xs ys := by
  choose value hv using exists_value h
  exact ⟨xs.map value, List.forall₂_map_right_iff.2 (List.forall₂_same.2 fun x _ => hv x)⟩

theorem Values.unique {zs : List Float} (h : compiled.Values xs ys) (h' : compiled.Values xs zs) : ys = zs :=
  List.right_unique_forall₂' (fun _ _ _ hy hz => Except.ok.inj (hy.symm.trans hz)) h h'

/-- A range that is finite is sampled at its points, if these are not too many. -/
theorem Values.outcome_sample {request : RangeRequest} {range : Range} {size limit : Nat}
    (resolves : request.resolve = .ok range) (counts : compiled.size range = .ok size) (fits : size ≤ limit)
    (h : compiled.Values (Range.points range.x0 range.dx size) ys) :
    (compiled.sample request limit).outcome =
      .ok { name := compiled.definition, points := (Range.points range.x0 range.dx size).zip ys } := by
  have evaluated := Report.outcome_mapError_ok h.outcome_evaluateAll SampleError.evaluation
  rw [Compiled.sample, Report.outcome_ofExcept_ok resolves, Report.outcome_ofExcept_ok counts,
    if_neg (Nat.not_lt.2 fits)]
  exact (Report.outcome_bind_ok evaluated _).trans rfl

end Compiled

end Formula
