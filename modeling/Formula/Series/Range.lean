import Formula.Compiled
import Formula.Number.Layout
import Formula.Settings
/-!
# Ranges

A range goes from `x0` in steps of `dx` to about `x1`. A range that points away from its end, or does not move,
has the one point `x0`.
-/

namespace Formula

structure Range where
  x0 : Float
  x1 : Float
  dx : Float

/-- A range of which some parts may not be given. -/
structure RangeRequest where
  x0 : Option Float := none
  x1 : Option Float := none
  dx : Option Float := none

inductive RangeError
  | notFinite (name : String) (value : Float)
  | uncountable (range : Range)
  | tooMany (range : Range) (needed limit : Nat)

namespace RangeError

/-- The beginning of every message about the size of a range. -/
def subject (range : Range) : String :=
  s!"Sampling [{Number.exact range.x0}, {Number.exact range.x1}] with dx={Number.exact range.dx}"

def message : RangeError → String
  | .notFinite name value => s!"{name} must be finite, got {Number.exact value}"
  | .uncountable range => s!"{subject range} needs too many points"
  | .tooMany range needed limit => s!"{subject range} needs {needed} points, limit is {limit}"

end RangeError

namespace RangeRequest

/-- The range that is asked for, with the settings in the place of what is not given. -/
def complete (request : RangeRequest) : Range :=
  let settings : SamplingSettings := {}
  { x0 := request.x0.getD settings.x0
    x1 := request.x1.getD settings.x1
    dx := request.dx.getD settings.dx }

/-- The range that is asked for, if its three parts are finite; they are looked at in their order. -/
def resolve (request : RangeRequest) : Except RangeError Range :=
  let range := request.complete
  if !range.x0.isFinite then .error (.notFinite "x0" range.x0)
  else if !range.x1.isFinite then .error (.notFinite "x1" range.x1)
  else if !range.dx.isFinite then .error (.notFinite "dx" range.dx)
  else .ok range

end RangeRequest

namespace Range

/-- The step leads from the start toward the end. -/
def advances (range : Range) : Bool :=
  (range.x0 < range.x1 && 0 < range.dx) || (range.x1 < range.x0 && range.dx < 0)

def steps (range : Range) : Float :=
  (range.x1 - range.x0) / range.dx

/-- The number of points of a range: one more than its steps, rounded to a whole number. -/
def size (range : Range) : Except RangeError Nat :=
  if range.advances then
    match Number.nearestInt? range.steps with
    | some steps => .ok (1 + steps.toNat)
    | none => .error (.uncountable range)
  else .ok 1

/-- The first `n` points from `x0` in steps of `dx`. -/
def points (x0 dx : Float) (n : Nat) : List Float :=
  (List.range n).map fun i => x0 + Float.ofNat i * dx

end Range

/-- The number of points at which a function is evaluated over a range; an invalid one is evaluated at none. -/
def Compiled.size (compiled : Compiled) (range : Range) : Except RangeError Nat :=
  if compiled.isValid then range.size else .ok 0

end Formula
