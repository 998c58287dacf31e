import Formula.Sampler.Cache
import Formula.Series.Basic
import Formula.Series.Extent
/-!
# The sampler

A sampler compiles definitions through a cache and takes samples of them. Each operation gives the sampler that
comes after it, beside its report; a failure leaves a sampler too.
-/

namespace Formula

structure Sampler where
  cacheSize : Nat
  maxPoints : Nat
  cache : Cache Compiled := {}
  hits : Nat := 0
  misses : Nat := 0
  cacheSize_pos : 0 < cacheSize
  maxPoints_pos : 0 < maxPoints

inductive SamplerError
  | cacheSize (given : Int)
  | maxPoints (given : Int)
deriving DecidableEq, Repr

def SamplerError.message : SamplerError → String
  | .cacheSize given => s!"cache_size must be positive, got {given}"
  | .maxPoints given => s!"max_points must be at least 1, got {given}"

/-- What is sampled: a definition, or a function compiled before. -/
inductive Subject
  | definition (text : String)
  | compiled (function : Compiled)

namespace Sampler

/-- A sampler with an empty cache; the settings say what is not given. -/
def new (cacheSize maxPoints : Option Int) : Except SamplerError Sampler :=
  let settings : SamplingSettings := {}
  let cacheSize := cacheSize.getD settings.cacheSize
  let maxPoints := maxPoints.getD settings.maxPoints
  if sizeOk : 1 ≤ cacheSize then
    if pointsOk : 1 ≤ maxPoints then
      .ok
        { cacheSize := cacheSize.toNat
          maxPoints := maxPoints.toNat
          cacheSize_pos := by omega
          maxPoints_pos := by omega }
    else .error (.maxPoints maxPoints)
  else .error (.cacheSize cacheSize)

/-- Compiles a definition, or takes it from the cache. Either way it is then the most recently used. -/
def compile (sampler : Sampler) (definition : String) : Sampler × Report ConversionError Compiled :=
  match sampler.cache.find? definition with
  | some compiled =>
    ({ sampler with cache := sampler.cache.touch definition, hits := sampler.hits + 1 }, pure compiled)
  | none =>
    match Formula.compile definition with
    | ⟨.ok compiled, log⟩ =>
      ({ sampler with
          cache := sampler.cache.insert sampler.cacheSize definition compiled
          misses := sampler.misses + 1 },
        ⟨.ok compiled, log ++ if compiled.isValid then [] else [.invalid definition compiled.describe]⟩)
    | ⟨.error error, log⟩ => ({ sampler with misses := sampler.misses + 1 }, ⟨.error error, log⟩)

def resolve (sampler : Sampler) : Subject → Sampler × Report ConversionError Compiled
  | .definition text => sampler.compile text
  | .compiled function => (sampler, pure function)

/-- Takes samples. The subject is compiled before the range is looked at. -/
def sample (sampler : Sampler) (subject : Subject) (request : RangeRequest) :
    Sampler × Report SampleError Series :=
  let (next, report) := sampler.resolve subject
  (next, do
    let compiled ← report.mapError .conversion
    compiled.sample request sampler.maxPoints)

def extent (sampler : Sampler) (subject : Subject) (request : RangeRequest) :
    Sampler × Report SampleError Extent :=
  let (next, report) := sampler.sample subject request
  (next, (fun series => Extent.ofPoints series.points) <$> report)

def clear (sampler : Sampler) : Sampler × Log :=
  ({ sampler with cache := {}, hits := 0, misses := 0 }, [.cleared sampler.hits sampler.misses])

end Sampler

end Formula
