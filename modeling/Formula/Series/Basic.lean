import Formula.Series.Range
/-!
# Series

The samples of a function over a range, in order. There is a series for every range that `RangeRequest.resolve`
and `Compiled.size` let pass and that is not too long.
-/

namespace Formula

/-- Points and the values of a function there. -/
structure Series where
  name : String
  points : List (Float × Float)

/-- Values at given points, or at 0, 1, 2, … where none are given. -/
def indexed (index : Option (List Float)) (values : List Float) : List (Float × Float) :=
  match index with
  | some index => index.zip values
  | none => (Range.points 0 1 values.length).zip values

namespace Compiled

/-- The values at the remaining points, after those in `done`, newest first. -/
def evaluateFrom (compiled : Compiled) (done : List Float) (log : Log) :
    List Float → Report EvaluationError (List Float)
  | [] => ⟨.ok done.reverse, log⟩
  | x :: rest =>
    match compiled.evaluate x with
    | ⟨.ok value, more⟩ => evaluateFrom compiled (value :: done) (log ++ more) rest
    | ⟨.error error, more⟩ => ⟨.error error, log ++ more⟩

def evaluateAll (compiled : Compiled) (xs : List Float) : Report EvaluationError (List Float) :=
  evaluateFrom compiled [] [] xs

end Compiled

inductive SampleError
  | range (error : RangeError)
  | conversion (error : ConversionError)
  | evaluation (error : EvaluationError)

def SampleError.message : SampleError → String
  | .range error => error.message
  | .conversion error => error.message
  | .evaluation error => error.message

def Compiled.sample (compiled : Compiled) (request : RangeRequest) (limit : Nat) : Report SampleError Series := do
  let range ← (Report.ofExcept request.resolve).mapError .range
  let size ← (Report.ofExcept (compiled.size range)).mapError .range
  if size > limit then .fail (.range (.tooMany range size limit)) []
  else
    let xs := Range.points range.x0 range.dx size
    let ys ← (compiled.evaluateAll xs).mapError .evaluation
    Report.note (.sampled compiled.definition size)
    return { name := compiled.definition, points := xs.zip ys }

end Formula
