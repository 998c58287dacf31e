import Formula.Command.Arguments
import Formula.Log
import Formula.Number.Reading
import Formula.Series.Range
/-!
# Invocations

The three commands and what they are given: a definition to check, a definition and points to evaluate it at, or
a definition and a range to sample it over. The level of the log comes before the name of the command.
-/

namespace Formula.Command

inductive Request
  | check (definition : String)
  | eval (definition : String) (xs : List Float)
  | sample (definition : String) (range : RangeRequest) (path : Option String)

structure Invocation where
  level : Level
  request : Request

/-- The options of the command that samples. -/
inductive SampleOption
  | x0 | x1 | dx | path
deriving DecidableEq, Repr

def sampleOptions : List (String × SampleOption) :=
  [("--x0", .x0), ("--x1", .x1), ("--dx", .dx), ("--output_path", .path)]

structure Gathered where
  definition : Option String := none
  xs : List Float := []
  range : RangeRequest := {}
  path : Option String := none

def number (text : String) : Except Stop Float :=
  match Number.read? text with
  | some x => .ok x
  | none => .error .usage

/-- The number that an option has as its value, if it has one. -/
def number? (value : Option String) : Except Stop (Option Float) :=
  match value with
  | some text => (number text).map some
  | none => .ok none

namespace Gathered

/-- The first positional text is the definition; those after it are numbers. -/
def addTexts (gathered : Gathered) (texts : List String) : Except Stop Gathered :=
  match gathered.definition, texts with
  | none, [text] => .ok { gathered with definition := some text }
  | none, _ => .error .usage
  | some _, _ => (texts.mapM number).map fun xs => { gathered with xs }

/-- The last value of an option counts. -/
def addOption (gathered : Gathered) (option : SampleOption) (value : Option String) : Except Stop Gathered :=
  let range := gathered.range
  match option with
  | .x0 => (number? value).map fun x0 => { gathered with range := { range with x0 } }
  | .x1 => (number? value).map fun x1 => { gathered with range := { range with x1 } }
  | .dx => (number? value).map fun dx => { gathered with range := { range with dx } }
  | .path => .ok { gathered with path := value }

def add (gathered : Gathered) : Given SampleOption → Except Stop Gathered
  | .stop stop => .error stop
  | .positional texts => gathered.addTexts texts
  | .option option value => gathered.addOption option value

end Gathered

/-- Reads the arguments of a command with given options and slots. -/
def gather (options : List (String × SampleOption)) (slots : List Slot) (texts : List String) :
    Except Stop Gathered := do
  let arguments ← Argument.ofTexts options texts
  (given slots false arguments).foldlM Gathered.add {}

def Request.named (name : String) (texts : List String) : Except Stop Request :=
  match name with
  | "check" => (gather [] [.one] texts).map fun all => .check (all.definition.getD "")
  | "eval" => (gather [] [.one, .many] texts).map fun all => .eval (all.definition.getD "") all.xs
  | "sample" =>
    (gather sampleOptions [.one] texts).map fun all => .sample (all.definition.getD "") all.range all.path
  | _ => .error .usage

/-- The level of the log with a given name, or the one in the settings where no name is given. -/
def levelNamed (name : Option String) : Except Stop Level :=
  match Level.named? (name.getD ({} : Settings).level) with
  | some level => .ok level
  | none => .error .usage

/-- Reads the arguments before the name of the command, each with its text, and then the command. -/
def start (level : Level) (leftOver : Bool) : List (Argument Unit × String) → Except Stop Invocation
  | [] => .error .usage
  | (.help, _) :: _ => .error .help
  | (.misused, _) :: _ => .error .usage
  | (.separator, _) :: _ => .error .usage
  | (.unknown, _) :: rest => start level true rest
  | (.option _ (some value), _) :: rest => do start (← levelNamed (notSeparator value)) leftOver rest
  | (.option _ none, _) :: (.plain value, _) :: rest => do start (← levelNamed (some value)) leftOver rest
  | (.option _ none, _) :: _ => .error .usage
  | (.plain name, _) :: rest => do
    let request ← Request.named name (rest.map (·.2))
    if leftOver then .error .usage else return { level, request }

/-- The invocation that a row of arguments stands for. -/
def Invocation.ofArguments (texts : List String) : Except Stop Invocation := do
  let arguments ← Argument.ofTexts [("--log_level", ())] texts
  start (← levelNamed none) false (arguments.zip texts)

end Formula.Command
