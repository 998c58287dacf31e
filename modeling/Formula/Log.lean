/-!
# The log

Every record that the library can write is an `Event`. Its level, its source and its text are functions of the
event, so what a computation logs is a list of events.
-/

namespace Formula

/-- How much a record matters. -/
inductive Level
  | debug | info | warning | error | critical
deriving DecidableEq, Repr

namespace Level

def all : List Level := [.debug, .info, .warning, .error, .critical]

def name : Level → String
  | .debug => "DEBUG"
  | .info => "INFO"
  | .warning => "WARNING"
  | .error => "ERROR"
  | .critical => "CRITICAL"

def rank : Level → Nat
  | .debug => 10
  | .info => 20
  | .warning => 30
  | .error => 40
  | .critical => 50

def named? (name : String) : Option Level :=
  all.find? fun level => level.name = name

end Level

/-- The part of the library that writes a record. -/
inductive Source
  | tokens | compiler | conversion | machine | sampler | commands
deriving DecidableEq, Repr

def Source.name : Source → String
  | .tokens => "core.tokenizer"
  | .compiler => "core.function_parser"
  | .conversion => "core.postfix"
  | .machine => "core.rpn_evaluator"
  | .sampler => "sampling.sampler"
  | .commands => "main"

inductive Event
  /-- A definition was accepted, with `count` tokens. -/
  | accepted (definition : String) (count : Nat)
  | rejected (definition : String) (position : Int) (reason : String)
  /-- A closing bracket or a comma met no open bracket. -/
  | unmatched (spelling : String)
  | missingOperands (spelling : String)
  /-- A sequence left other than one value on the stack. -/
  | leftover (count : Nat)
  /-- The sequence that did so. -/
  | sequence (spellings : String)
  /-- The sampler compiled a definition that is invalid. -/
  | invalid (definition : String) (description : String)
  | sampled (definition : String) (count : Nat)
  | cleared (hits misses : Nat)
  | refused (description : String)
  | summary (count undefined : Nat)
  | saving (path : String)
deriving DecidableEq, Repr

namespace Event

def level : Event → Level
  | .accepted .. | .rejected .. | .sampled .. => .debug
  | .cleared .. | .summary .. | .saving .. => .info
  | .invalid .. => .warning
  | .unmatched .. | .missingOperands .. | .leftover .. | .sequence .. | .refused .. => .error

def source : Event → Source
  | .accepted .. => .tokens
  | .rejected .. => .compiler
  | .unmatched .. => .conversion
  | .missingOperands .. | .leftover .. | .sequence .. => .machine
  | .invalid .. | .sampled .. | .cleared .. => .sampler
  | .refused .. | .summary .. | .saving .. => .commands

/-- A definition as the sampler's records quote it: its first fifty characters. -/
def excerpt (definition : String) : String :=
  String.ofList (definition.toList.take 50)

def message : Event → String
  | .accepted definition count => s!"Tokenized '{definition}' into {count} tokens"
  | .rejected definition position reason => s!"Parse failed at index {position}: {reason} in '{definition}'"
  | .unmatched spelling => s!"Unmatched '{spelling}' reached the postfix conversion"
  | .missingOperands spelling => s!"Insufficient operands for {spelling}"
  | .leftover count => s!"Stack has {count} elements after evaluation, expected 1"
  | .sequence spellings => s!"RPN expression: {spellings}"
  | .invalid definition description => s!"Invalid function '{excerpt definition}': {description}"
  | .sampled definition count => s!"Sampled '{excerpt definition}' at {count} points"
  | .cleared hits misses => s!"Cache cleared. Hits: {hits}, Misses: {misses}"
  | .refused description => description
  | .summary count undefined => s!"Sampled {count} points, {undefined} undefined"
  | .saving path => s!"Saving samples to {path}"

/-- An event is shown at a threshold iff its level reaches it. -/
def reaches (threshold : Level) (event : Event) : Bool :=
  threshold.rank ≤ event.level.rank

def line (event : Event) : String :=
  s!"{event.source.name} - {event.level.name} - {event.message}"

end Event

/-- The events in the order in which they happened. -/
abbrev Log := List Event

/-- The events that matter at least as much as a level. -/
def Log.atLeast (log : Log) (threshold : Level) : Log :=
  log.filter (·.reaches threshold)

end Formula
