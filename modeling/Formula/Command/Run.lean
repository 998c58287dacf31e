import Formula.Command.File
import Formula.Command.Invocation
import Formula.Sampler.Basic
/-!
# Running a command

A command ends with an exit status, the text that it prints, and the files that it writes. The status is 1 iff the
definition is invalid; then `eval` and `sample` print nothing and no file is written.
-/

namespace Formula.Command

structure Result where
  status : Nat
  output : String := ""
  files : List File := []

def lines (texts : List String) : String :=
  String.join (texts.map (· ++ "\n"))

/-! ## Layout of the output -/

/-- The verdict on an invalid function: its fault, the definition, and a mark below the character to blame. -/
def verdict (compiled : Compiled) : List String :=
  let position := compiled.errorPosition
  [compiled.describe, compiled.definition] ++
    if 0 ≤ position then [String.ofList (List.replicate position.toNat ' ' ++ ['^'])] else []

def valueLine (x y : Float) : String :=
  s!"{Number.general 6 x} -> {Number.general 10 y}"

def sampleLine (x y : Float) : String :=
  s!"{Number.general 6 x}\t{Number.general 10 y}"

def extentLine (extent : Extent) : String :=
  s!"Data range: x=[{Number.general 6 extent.minX}, {Number.general 6 extent.maxX}], " ++
    s!"y=[{Number.general 6 extent.minY}, {Number.general 6 extent.maxY}]"

/-- A number in a table of samples; the place of an undefined one is empty. -/
def cell (x : Float) : String :=
  if x.isNaN then "" else Number.exact x

/-- A series as a table with a line of titles. -/
def table (points : List (Float × Float)) : String :=
  lines ("x,y" :: points.map fun (x, y) => cell x ++ "," ++ cell y)

/-! ## The commands -/

def check (definition : String) : Report SampleError Result := do
  let compiled ← (compile definition).mapError .conversion
  return if compiled.isValid then { status := 0, output := lines [s!"Postfix: {compiled.codeText}"] }
    else { status := 1, output := lines (verdict compiled) }

def refuse (compiled : Compiled) : Report SampleError Result := do
  Report.note (.refused compiled.describe)
  return { status := 1 }

def eval (definition : String) (xs : List Float) : Report SampleError Result := do
  let compiled ← (compile definition).mapError .conversion
  if compiled.isValid then
    let ys ← (compiled.evaluateAll xs).mapError .evaluation
    return { status := 0, output := lines ((xs.zip ys).map fun (x, y) => valueLine x y) }
  else refuse compiled

/-- The sampler of a command, as the settings have it. -/
def sampler : Sampler :=
  { cacheSize := ({} : SamplingSettings).cacheSize.toNat
    maxPoints := ({} : SamplingSettings).maxPoints.toNat
    cacheSize_pos := by decide
    maxPoints_pos := by decide }

/-- The samples go to a file if its path is not empty, and to the output otherwise. -/
def sample (definition : String) (range : RangeRequest) (path : Option String) : Report SampleError Result := do
  let (sampler, compilation) := sampler.compile definition
  let compiled ← compilation.mapError .conversion
  if compiled.isValid then
    let series ← (sampler.sample (.compiled compiled) range).2
    let points := series.points
    Report.note (.summary points.length (countUndefined points))
    let extent := extentLine (Extent.ofPoints points)
    let path := path.getD ""
    if path.isEmpty then
      return { status := 0, output := lines (points.map (fun (x, y) => sampleLine x y) ++ [extent]) }
    else
      Report.note (.saving path)
      return { status := 0, output := lines [extent], files := [⟨path, table points⟩] }
  else refuse compiled

def Request.run : Request → Report SampleError Result
  | .check definition => Command.check definition
  | .eval definition xs => Command.eval definition xs
  | .sample definition range path => Command.sample definition range path

inductive Answer
  | stopped (stop : Stop)
  | failed (error : SampleError) (log : String)
  | finished (result : Result) (log : String)

/-- Answers a row of arguments; the log is cut at the level that they choose. -/
def answer (arguments : List String) : Answer :=
  match Invocation.ofArguments arguments with
  | .error stop => .stopped stop
  | .ok invocation =>
    let report := invocation.request.run
    let log := lines ((report.log.atLeast invocation.level).map Event.line)
    match report.outcome with
    | .ok result => .finished result log
    | .error error => .failed error log

end Formula.Command
