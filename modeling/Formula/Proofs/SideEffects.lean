import Formula.Proofs.Pointwise
/-!
# A sample leaves what compiling leaves

Taking samples changes a sampler as compiling their definition does, and says no more of it in the log, whether the
samples are taken or refused (`sample_acts_as_compile`): what comes after the compiler is `Report.Quiet`. What compiling
itself says is that a new definition is invalid, if it is (`atLeast_compile`).
-/

namespace Formula

/-! ## Quiet reports -/

theorem Log.atLeast_append (first second : Log) (threshold : Level) :
    Log.atLeast (first ++ second) threshold = first.atLeast threshold ++ second.atLeast threshold :=
  List.filter_append ..

namespace Report

variable {ε ε' α β : Type}

/-- Nothing that matters is logged. -/
def Quiet (report : Report ε α) : Prop :=
  report.log.atLeast .info = []

theorem log_map (f : α → β) (report : Report ε α) : (f <$> report).log = report.log := by
  rcases report with ⟨_ | _, log⟩
  · rfl
  · exact List.append_nil log

/-- What is quiet adds nothing that matters to what was logged before it. -/
theorem atLeast_bind {first : Report ε α} {next : α → Report ε β}
    (quiet : ∀ value, first.outcome = .ok value → (next value).Quiet) :
    (first >>= next).log.atLeast .info = first.log.atLeast .info := by
  rcases first with ⟨_ | value, log⟩
  · rfl
  · rw [bind_ok, Log.atLeast_append, quiet value rfl, List.append_nil]

theorem Quiet.bind {first : Report ε α} {next : α → Report ε β} (quiet : first.Quiet)
    (rest : ∀ value, first.outcome = .ok value → (next value).Quiet) : (first >>= next).Quiet :=
  (atLeast_bind rest).trans quiet

theorem quiet_ofExcept (outcome : Except ε α) (f : ε → ε') : ((ofExcept outcome).mapError f).Quiet := rfl

end Report

/-! ## Samples -/

namespace Compiled

variable {definition : String} {compiled : Compiled} (compiles : (compile definition).outcome = .ok compiled)

include compiles

theorem log_evaluate (x : Float) : (compiled.evaluate x).log = [] := by
  rcases compiled_cases compiles with ⟨_, _, tree, hc, hp, rfl⟩ | ⟨_, -, rfl⟩
  · rw [evaluate_ofTree hc hp]
    rfl
  · rfl

theorem log_evaluateFrom (done : List Float) (log : Log) (xs : List Float) :
    (compiled.evaluateFrom done log xs).log = log := by
  induction xs generalizing done log with
  | nil => rfl
  | cons x rest ih =>
    obtain ⟨y, value⟩ := exists_value compiles x
    have silent := log_evaluate compiles x
    rcases hx : compiled.evaluate x with ⟨outcome, more⟩
    rw [hx] at value silent
    obtain rfl : outcome = .ok y := value
    obtain rfl : more = [] := silent
    rw [evaluateFrom, hx]
    exact (ih (y :: done) (log ++ [])).trans (List.append_nil log)

/-- A sample of what was compiled says nothing that matters, wherever it ends. -/
theorem quiet_sample (request : RangeRequest) (limit : Nat) : (compiled.sample request limit).Quiet := by
  refine (Report.quiet_ofExcept request.resolve SampleError.range).bind fun range _ => ?_
  refine (Report.quiet_ofExcept (compiled.size range) SampleError.range).bind fun size _ => ?_
  split
  · rfl
  · refine Report.Quiet.bind ?_ fun ys _ => rfl
    have silent := log_evaluateFrom compiles [] [] (Range.points range.x0 range.dx size)
    exact congrArg (Log.atLeast · .info) silent

end Compiled

/-! ## Compiling -/

/-- The compiler says nothing that matters. -/
theorem quiet_compile (definition : String) : (compile definition).Quiet := by
  cases h : tokenize definition with
  | ok tokens =>
    obtain ⟨lexemes, tree, hc, hp⟩ := exists_parses h
    rw [compile_of_parses hc hp]
    rfl
  | error rejection =>
    rw [compile_of_error h]
    rfl

namespace Sampler

/-- Compiling says of a definition that it is invalid, unless it is in the cache, and nothing else that matters. -/
theorem atLeast_compile (sampler : Sampler) {definition : String} {compiled : Compiled}
    (compiles : (Formula.compile definition).outcome = .ok compiled) :
    (sampler.compile definition).2.log.atLeast .info =
      if definition ∈ sampler.cache.keys ∨ compiled.isValid then [] else [.invalid definition compiled.describe] := by
  cases found : sampler.cache.find? definition with
  | some cached =>
    rw [compile_hit found, if_pos (.inl (Cache.mem_keys_of_find? found))]
    rfl
  | none =>
    have absent := Cache.find?_eq_none_iff.1 found
    have quiet := quiet_compile definition
    unfold compile
    rw [found]
    rcases hc : Formula.compile definition with ⟨outcome, log⟩
    rw [hc] at compiles quiet
    obtain rfl : outcome = .ok compiled := compiles
    have quiet : log.atLeast .info = [] := quiet
    dsimp only
    rw [Log.atLeast_append, quiet, List.nil_append]
    cases valid : compiled.isValid with
    | true =>
      rw [if_pos rfl, if_pos (.inr rfl)]
      rfl
    | false =>
      rw [if_neg Bool.false_ne_true, if_neg (not_or.2 ⟨absent, Bool.false_ne_true⟩)]
      rfl

/-! ## Samplers -/

/-- Two operations leave the same sampler and the same records that matter. -/
structure Alike {ε ε' α β : Type} (first : Sampler × Report ε α) (second : Sampler × Report ε' β) : Prop where
  sampler : first.1 = second.1
  log : first.2.log.atLeast .info = second.2.log.atLeast .info

section

variable {sampler : Sampler} (sound : sampler.Sound) {subject : Subject} (made : subject.IsMade)
  (request : RangeRequest)

include sound made

theorem alike_sample : Alike (sampler.sample subject request) (sampler.resolve subject) := by
  obtain ⟨definition, compiled, function, compiles⟩ := made.exists_definition
  have resolves : ((sampler.resolve subject).2.mapError SampleError.conversion).outcome = .ok compiled :=
    Report.outcome_mapError_ok ((outcome_resolve sound subject).trans function) SampleError.conversion
  refine ⟨rfl, Report.atLeast_bind fun value resolved => ?_⟩
  obtain rfl := Except.ok.inj (resolves.symm.trans resolved)
  exact Compiled.quiet_sample compiles request sampler.maxPoints

theorem alike_extent : Alike (sampler.extent subject request) (sampler.resolve subject) where
  sampler := rfl
  log := by
    rw [extent, Report.log_map]
    exact (alike_sample sound made request).log

end

/-- Whatever a sampler did before, samples of a definition and their extent leave it and its log as compiling the
definition does, and those of a function that was compiled before leave both as they are. This holds where the samples
are refused, too. -/
theorem sample_acts_as_compile {cacheSize maxPoints : Option Int} {sampler : Sampler}
    (h : new cacheSize maxPoints = .ok sampler) (actions : List Action) (request : RangeRequest) :
    (∀ text,
      Alike ((sampler.run actions).sample (.definition text) request) ((sampler.run actions).compile text) ∧
      Alike ((sampler.run actions).extent (.definition text) request) ((sampler.run actions).compile text)) ∧
    ∀ compiled, (Subject.compiled compiled).IsMade →
      ((sampler.run actions).sample (.compiled compiled) request).1 = sampler.run actions ∧
      ((sampler.run actions).sample (.compiled compiled) request).2.log.atLeast .info = [] ∧
      ((sampler.run actions).extent (.compiled compiled) request).1 = sampler.run actions ∧
      ((sampler.run actions).extent (.compiled compiled) request).2.log.atLeast .info = [] := by
  have sound := (fresh_new h).sound_run actions
  constructor
  · intro text
    have made : (Subject.definition text).IsMade := trivial
    exact ⟨alike_sample sound made request, alike_extent sound made request⟩
  · intro compiled made
    have sampled := alike_sample sound made request
    have measured := alike_extent sound made request
    exact ⟨sampled.sampler, sampled.log, measured.sampler, measured.log⟩

/-- A step that is no number refuses the samples, but the definition has taken the place of the one before it, and it
is said to be invalid. -/
theorem sample_acts_as_compile_refused : ∃ sampler, new (some 1) none = .ok sampler ∧
    let sampled := (sampler.run [.compile "x"]).sample (.definition "x+") { dx := some Number.undefined }
    sampled.2.outcome.isOk = false ∧ sampled.1.cache.keys = ["x+"] ∧ sampled.1.misses = 2 ∧
      sampled.2.log.atLeast .info = [.invalid "x+" "Parse failed at index 1: Must end with an operand or )"] := by
  have h : new (some 1) none = .ok ⟨1, 1000000, {}, 0, 0, by decide, by decide⟩ := rfl
  have alike := ((sample_acts_as_compile h [.compile "x"] { dx := some Number.undefined }).1 "x+").1
  refine ⟨_, h, by decide +kernel, ?_⟩
  rw [alike.sampler, alike.log]
  decide +kernel

end Sampler

end Formula
