import Formula.Definition.Fault
import Formula.Log
/-!
# Settings

The values in use where a caller gives none, and the conditions that they have to meet.
-/

namespace Formula

/-- The range that is sampled, and the bounds on the sampler's memory and work. -/
structure SamplingSettings where
  x0 : Float := 0
  x1 : Float := 10
  dx : Float := 1
  cacheSize : Int := 256
  maxPoints : Int := 1000000

structure Settings where
  /-- The description of a rejected definition, with the places of its position and its reason. -/
  errorFormat : String := failureText "\x7bposition\x7d" "\x7breason\x7d"
  sampling : SamplingSettings := {}
  /-- The name of the least level that is logged. -/
  level : String := Level.info.name

inductive SettingsError
  | noPosition | noReason | cacheSize | maxPoints | level
deriving DecidableEq, Repr

def SettingsError.message : SettingsError → String
  | .noPosition => "error_format needs \x7bposition\x7d"
  | .noReason => "error_format needs \x7breason\x7d"
  | .cacheSize => "cache_size must be positive"
  | .maxPoints => "max_points must be at least 1"
  | .level => ""

namespace Settings

/-- Whether a text stands somewhere in another one. -/
def occursIn (part : List Char) : List Char → Bool
  | [] => part.isEmpty
  | c :: rest => part.isPrefixOf (c :: rest) || occursIn part rest

def holds (template place : String) : Bool :=
  occursIn place.toList template.toList

/-- The first condition that settings do not meet. -/
def validate (settings : Settings) : Except SettingsError Unit :=
  if !holds settings.errorFormat "\x7bposition\x7d" then .error .noPosition
  else if !holds settings.errorFormat "\x7breason\x7d" then .error .noReason
  else if settings.sampling.cacheSize ≤ 0 then .error .cacheSize
  else if settings.sampling.maxPoints < 1 then .error .maxPoints
  else if (Level.named? settings.level).isNone then .error .level
  else .ok ()

/-- The settings in use are sound. -/
theorem validate_default : validate {} = .ok () := rfl

end Settings

end Formula
