import Formula.Command.Run
import Formula.Proofs.Arguments
import Formula.Proofs.Fields
import Formula.Proofs.Sampling
import Formula.Proofs.Transparency
/-!
# What the commands say

The three commands find a definition valid or not as the library does. An invalid one is refused (`Refuses`): `check`
says what is wrong with it, and the others write nothing at all, whatever points or range they are given. On a valid
one they write what the library computes, a line for each number asked for (`Serves`). Every definition can be given
behind a separator (`Takes`).
-/

namespace Formula

/-! ## Where a definition is at fault -/

theorem position_nonneg_of_acceptAll {recent : List Token} {lexemes : List Lexeme} {rejection : Rejection}
    (h : acceptAll recent lexemes = .error rejection) : 0 ≤ rejection.position := by
  induction lexemes generalizing recent with
  | nil => cases h
  | cons lexeme rest ih =>
    rw [acceptAll] at h
    split at h
    · cases h
      exact Int.natCast_nonneg _
    · exact ih h

/-- There is a character to blame, unless there is none at all. -/
theorem position_nonneg_iff {text : List Char} {rejection : Rejection} (h : tokensOf text = .error rejection) :
    0 ≤ rejection.position ↔ text ≠ [] := by
  by_cases hn : text = []
  · subst hn
    cases h
    decide
  · simp only [ne_eq, hn, not_false_eq_true, iff_true]
    have length : 0 < text.length := List.length_pos_iff.2 hn
    rw [tokensOf, if_neg (by simpa using hn)] at h
    split at h
    · cases h
      exact Int.natCast_nonneg _
    · split at h
      · next ha =>
        cases h
        exact position_nonneg_of_acceptAll ha
      · cases h
        decide
      · split at h
        · cases h
        · cases h
          change (0 : Int) ≤ text.length - 1
          omega

namespace Command

/-- A row of arguments is a request, whatever is to be logged. -/
def Asks (arguments : List String) (request : Request) : Prop :=
  ∃ level, Invocation.ofArguments arguments = .ok ⟨level, request⟩

/-- A row of arguments is answered with a result, whatever is logged. -/
def Finishes (arguments : List String) (result : Result) : Prop :=
  ∃ log, answer arguments = .finished result log

theorem Asks.finishes {arguments : List String} {request : Request} {result : Result} (h : Asks arguments request)
    (hr : request.run.outcome = .ok result) : Finishes arguments result := by
  obtain ⟨level, hl⟩ := h
  refine ⟨lines ((request.run.log.atLeast level).map Event.line), ?_⟩
  rw [answer, hl]
  simp only [hr]

theorem sound_sampler : sampler.Sound :=
  have new : Sampler.new none none = .ok sampler := rfl
  (Sampler.fresh_new new).sound

section Outcomes

variable {definition : String} {compiled : Compiled} (hc : (compile definition).outcome = .ok compiled)

include hc

theorem outcome_conversion (f : ConversionError → SampleError) :
    ((sampler.compile definition).2.mapError f).outcome = .ok compiled :=
  Report.outcome_mapError_ok ((Sampler.outcome_compile sound_sampler definition).trans hc) f

/-! ## Invalid definitions -/

section Invalid

variable (hv : compiled.isValid = false)

include hv

theorem outcome_check_of_invalid :
    (check definition).outcome = .ok { status := 1, output := lines (verdict compiled) } := by
  rw [check, Report.outcome_bind_ok (Report.outcome_mapError_ok hc _), hv]
  rfl

theorem outcome_eval_of_invalid (xs : List Float) : (eval definition xs).outcome = .ok { status := 1 } := by
  rw [eval, Report.outcome_bind_ok (Report.outcome_mapError_ok hc _), hv]
  rfl

/-- The range is not looked at. -/
theorem outcome_sample_of_invalid (request : RangeRequest) (path : Option String) :
    (sample definition request path).outcome = .ok { status := 1 } := by
  refine (Report.outcome_bind_ok (outcome_conversion hc .conversion) _).trans ?_
  rw [hv]
  rfl

end Invalid

/-! ## Valid definitions -/

section Valid

variable (hv : compiled.isValid)

include hv

theorem outcome_check_of_valid :
    (check definition).outcome = .ok { status := 0, output := lines [s!"Postfix: {compiled.codeText}"] } := by
  rw [check, Report.outcome_bind_ok (Report.outcome_mapError_ok hc _), if_pos hv]
  rfl

theorem outcome_eval_of_valid {xs ys : List Float} (values : compiled.Values xs ys) :
    (eval definition xs).outcome =
      .ok { status := 0, output := lines ((xs.zip ys).map fun (x, y) => valueLine x y) } := by
  have evaluated := Report.outcome_mapError_ok values.outcome_evaluateAll SampleError.evaluation
  rw [eval, Report.outcome_bind_ok (Report.outcome_mapError_ok hc _), if_pos hv, Report.outcome_bind_ok evaluated]
  rfl

/-- The samples are those that the library takes of the definition. -/
theorem outcome_sample_of_valid {request : RangeRequest} {series : Series}
    (taken : (compiled.sample request sampler.maxPoints).outcome = .ok series) (path : Option String) :
    (sample definition request path).outcome = .ok
      (if (path.getD "").isEmpty then
        { status := 0
          output := lines (series.points.map (fun (x, y) => sampleLine x y) ++
            [extentLine (Extent.ofPoints series.points)]) }
      else
        { status := 0
          output := lines [extentLine (Extent.ofPoints series.points)]
          files := [⟨path.getD "", table series.points⟩] }) := by
  -- The function is sampled after it was compiled, by a sampler that has the definition in its cache.
  have limit : (sampler.compile definition).1.maxPoints = sampler.maxPoints :=
    (@Sampler.effect_compile sampler (.compile definition) definition rfl).maxPoints_eq
  have sampled : ((sampler.compile definition).1.sample (.compiled compiled) request).2.outcome = .ok series := by
    rw [← limit] at taken
    exact (Report.outcome_bind_ok rfl _).trans taken
  refine (Report.outcome_bind_ok (outcome_conversion hc .conversion) _).trans ?_
  rw [if_pos hv]
  refine (Report.outcome_bind_ok sampled _).trans ?_
  by_cases hp : (path.getD "").isEmpty
  · rw [if_pos hp]
    exact congrArg Report.outcome (if_pos hp)
  · rw [if_neg hp]
    exact congrArg Report.outcome (if_neg hp)

end Valid

end Outcomes

/-! ## What each command is given and says -/

/-- Behind a separator every text is a definition. -/
structure Takes (definition : String) : Prop where
  check : Asks ["check", "--", definition] (.check definition)
  eval {numbers : List String} {xs : List Float} : numbers ≠ [] → Denotes numbers xs →
    Asks ("eval" :: "--" :: definition :: numbers) (.eval definition xs)
  sample {choices : Choices} : choices.Legible →
    Asks ("sample" :: (choices.texts ++ ["--", definition])) (.sample definition choices.range choices.path)

/-- The line below the definition, with a mark at the position of the fault. -/
def markLine (compiled : Compiled) : String :=
  String.ofList (List.replicate compiled.errorPosition.toNat ' ' ++ ['^'])

/-- What the commands say of an invalid definition. Only `check` prints, and it marks a character if there is one. -/
structure Refuses (definition : String) (compiled : Compiled) : Prop where
  position : 0 ≤ compiled.errorPosition ↔ definition ≠ ""
  check {arguments : List String} : Asks arguments (.check definition) →
    Finishes arguments
      { status := 1
        output := compiled.describe ++ "\n" ++ definition ++ "\n" ++
          if definition = "" then "" else markLine compiled ++ "\n" }
  eval {arguments : List String} {xs : List Float} : Asks arguments (.eval definition xs) →
    Finishes arguments { status := 1, output := "", files := [] }
  sample {arguments : List String} {request : RangeRequest} {path : Option String} :
    Asks arguments (.sample definition request path) → Finishes arguments { status := 1, output := "", files := [] }

/-- The series that a sampler takes of a definition over a range with `size` points. -/
structure Samples (definition : String) (compiled : Compiled) (request : RangeRequest) (range : Range) (size : Nat)
    (series : Series) : Prop where
  taken : (sampler.sample (.definition definition) request).2.outcome = .ok series
  length : series.points.length = size
  points : series.points.map (·.1) = Range.points range.x0 range.dx size
  values : ∀ point ∈ series.points, (compiled.evaluate point.1).outcome = .ok point.2

/-- The values of the function settle which series it is. -/
theorem Samples.points_eq {definition : String} {compiled : Compiled} {request : RangeRequest} {range : Range}
    {size : Nat} {series : Series} {ys : List Float} (samples : Samples definition compiled request range size series)
    (values : compiled.Values (Range.points range.x0 range.dx size) ys) :
    series.points = (Range.points range.x0 range.dx size).zip ys := by
  have pairs : compiled.Values (series.points.map (·.1)) (series.points.map (·.2)) := by
    rw [Compiled.Values, List.forall₂_map_left_iff, List.forall₂_map_right_iff, List.forall₂_same]
    exact samples.values
  rw [samples.points] at pairs
  rw [values.unique pairs, ← samples.points, List.zip_map']
  exact (List.map_id _).symm

/-- What the commands say of a valid definition. The rows of a series are on the output or in a file, never on both. -/
structure Serves (definition : String) (compiled : Compiled) : Prop where
  check {arguments : List String} : Asks arguments (.check definition) →
    Finishes arguments { status := 0, output := "Postfix: " ++ compiled.codeText ++ "\n" }
  eval {arguments : List String} {xs : List Float} : Asks arguments (.eval definition xs) →
    ∃ ys output, compiled.Values xs ys ∧ PrintsValues (xs.zip ys) output ∧
      Finishes arguments { status := 0, output, files := [] }
  sample {request : RangeRequest} {range : Range} {size : Nat} : request.resolve = .ok range →
    compiled.size range = .ok size → size ≤ sampler.maxPoints →
      ∃ series, Samples definition compiled request range size series ∧ ∀ arguments path,
        Asks arguments (.sample definition request path) →
          (path.getD "" = "" → ∃ output, PrintsSeries series.points output ∧
            Finishes arguments { status := 0, output, files := [] }) ∧
          (path.getD "" ≠ "" → ∃ file, file.path = path.getD "" ∧ SavesSeries series.points file ∧
            Finishes arguments
              { status := 0
                output := boundsLine (Extent.ofPoints series.points) ++ "\n"
                files := [file] })

theorem takes (definition : String) : Takes definition where
  check := ⟨_, ofArguments_check definition⟩
  eval hne h := ⟨_, ofArguments_eval definition hne h⟩
  sample h := ⟨_, ofArguments_sample h definition⟩

theorem refuses {definition : String} {compiled : Compiled} (hc : (compile definition).outcome = .ok compiled)
    (hv : compiled.isValid = false) : Refuses definition compiled := by
  have position : 0 ≤ compiled.errorPosition ↔ definition ≠ "" := by
    rcases compiled_cases hc with ⟨_, _, tree, -, -, rfl⟩ | ⟨rejection, ht, rfl⟩
    · rw [isValid_ofTree] at hv
      cases hv
    · change 0 ≤ rejection.position ↔ definition ≠ ""
      simpa using position_nonneg_iff ht
  have said : lines (verdict compiled) = compiled.describe ++ "\n" ++ definition ++ "\n" ++
      if definition = "" then "" else markLine compiled ++ "\n" := by
    rw [verdict, definition_of_compile hc]
    by_cases hd : definition = ""
    · rw [if_pos hd, if_neg fun hp => position.1 hp hd]
      simp [lines, String.join_cons, String.append_assoc]
    · rw [if_neg hd, if_pos (position.2 hd)]
      simp [lines, markLine, String.join_cons, String.append_assoc]
  refine ⟨position, fun h => ?_, fun h => ?_, fun h => ?_⟩
  · rw [← said]
    exact h.finishes (outcome_check_of_invalid hc hv)
  · exact h.finishes (outcome_eval_of_invalid hc hv _)
  · exact h.finishes (outcome_sample_of_invalid hc hv _ _)

/-- There is a series over every range that is finite and has not too many points. -/
theorem exists_samples {definition : String} {compiled : Compiled} (hc : (compile definition).outcome = .ok compiled)
    {request : RangeRequest} {range : Range} {size : Nat} (resolves : request.resolve = .ok range)
    (counts : compiled.size range = .ok size) (fits : size ≤ sampler.maxPoints) :
    ∃ series, (compiled.sample request sampler.maxPoints).outcome = .ok series ∧
      Samples definition compiled request range size series := by
  obtain ⟨ys, values⟩ := Compiled.exists_values hc (Range.points range.x0 range.dx size)
  have taken := values.outcome_sample resolves counts fits
  have length : (Range.points range.x0 range.dx size).length = size := by simp [Range.points]
  obtain ⟨same, pointwise⟩ := List.forall₂_iff_zip.1 values
  refine ⟨_, taken, ?_, ?_, List.map_fst_zip same.le, fun point hm => pointwise hm⟩
  · rw [Sampler.outcome_sample sound_sampler, Subject.series_definition hc]
    exact taken
  · rw [List.length_zip, ← same, Nat.min_self, length]

theorem serves {definition : String} {compiled : Compiled} (hc : (compile definition).outcome = .ok compiled)
    (hv : compiled.isValid) : Serves definition compiled where
  check h := by
    rw [← lines_single]
    exact h.finishes (outcome_check_of_valid hc hv)
  eval {_ xs} h := by
    obtain ⟨ys, values⟩ := Compiled.exists_values hc xs
    exact ⟨ys, _, values, printsValues _, h.finishes (outcome_eval_of_valid hc hv values)⟩
  sample resolves counts fits := by
    obtain ⟨series, taken, samples⟩ := exists_samples hc resolves counts fits
    refine ⟨series, samples, fun arguments path h => ?_⟩
    have finishes := h.finishes (outcome_sample_of_valid hc hv taken path)
    refine ⟨fun hp => ⟨_, printsSeries series.points, ?_⟩, fun hp => ⟨_, rfl, savesSeries series.points _, ?_⟩⟩
    · rwa [if_pos (String.isEmpty_iff.2 hp)] at finishes
    · rwa [if_neg fun he => hp (String.isEmpty_iff.1 he), lines_single, extentLine_eq] at finishes

end Command

end Formula
