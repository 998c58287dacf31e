import Formula.Text.Digit
/-!
# Arguments

How a row of arguments is cut into options and positional texts. An option begins with a dash; its name may be cut
short as long as no other name begins so, and its value stands after an equals sign or in the next argument. A
negative number, and a text with a space, are no options. After the separator `--` nothing is. Every command
knows `-h` and `--help`. A separator in the place of a value takes the value away again.
-/

namespace Formula.Command

inductive Stop
  | usage | help
deriving DecidableEq, Repr

/-- The exit status of a program that stops so. -/
def Stop.status : Stop → Nat
  | .usage => 2
  | .help => 0

/-- An argument of a command whose options are `α`. -/
inductive Argument (α : Type)
  | plain (text : String)
  | separator
  | option (meaning : α) (value : Option String)
  | help
  /-- A request for help with a value, which it does not take. -/
  | misused
  | unknown

namespace Argument

variable {α : Type}

/-- A text and what follows its first equals sign, if it has one. -/
def splitValue (text : String) : String × Option String :=
  match text.toList.span (· ≠ '=') with
  | (name, _ :: value) => (String.ofList name, some (String.ofList value))
  | (name, []) => (String.ofList name, none)

/-- The names of a command's options, with none for help. -/
def names (options : List (String × α)) : List (String × Option α) :=
  ("--help", none) :: options.map fun (name, meaning) => (name, some meaning)

/-- The options that a text may name: the one with this very name, else all whose names begin so. -/
def candidates (options : List (String × α)) (text : String) : List (Option α) :=
  match (names options).lookup text with
  | some meaning => [meaning]
  | none => ((names options).filter fun (name, _) => text.toList.isPrefixOf name.toList).map (·.2)

/-- What follows the short name of help, also after an equals sign, may only ask for help again. -/
def shortHelp (rest : List Char) : Argument α :=
  let again := if rest.head? = some '=' then rest.drop 1 else rest
  if rest ≠ ['='] && again.all (· = 'h') then .help else .misused

def isWhole (text : List Char) : Bool :=
  !text.isEmpty && text.all Text.isDecimalDigit

/-- What follows the minus of a negative number: digits, or a point with at least one digit after it. A line end
may come last. -/
def isMagnitude (text : List Char) : Bool :=
  let digits := if text.getLast? = some '\n' then text.dropLast else text
  isWhole digits ||
    match digits.dropWhile Text.isDecimalDigit with
    | '.' :: part => isWhole part
    | _ => false

/-- A text after a dash that names no option. -/
def unnamed (rest : List Char) : Argument α :=
  if isMagnitude rest || rest.contains ' ' then .plain (String.ofList ('-' :: rest)) else .unknown

/-- One argument before the separator. -/
def ofText (options : List (String × α)) (text : String) : Except Stop (Argument α) :=
  match text.toList with
  | '-' :: '-' :: rest =>
    let (name, value) := splitValue text
    match candidates options name with
    | [] => .ok (unnamed ('-' :: rest))
    | [some meaning] => .ok (.option meaning value)
    | [none] => .ok (if value.isSome then .misused else .help)
    | _ => .error .usage
  | '-' :: 'h' :: more => .ok (shortHelp more)
  | '-' :: c :: rest => .ok (unnamed (c :: rest))
  | _ => .ok (.plain text)

def ofTexts (options : List (String × α)) : List String → Except Stop (List (Argument α))
  | [] => .ok []
  | "--" :: rest => .ok (.separator :: rest.map .plain)
  | text :: rest => do
    let argument ← ofText options text
    let others ← ofTexts options rest
    return argument :: others

/-- The text of an argument that is no option, or none for the separator. -/
def positional? : Argument α → Option (Option String)
  | .plain text => some (some text)
  | .separator => some none
  | _ => none

end Argument

/-! ## Filling the slots of a command -/

/-- A place for positional texts: for one, or for one and all that follow it. -/
inductive Slot
  | one | many
deriving DecidableEq, Repr

/-- What a command is given, in order. -/
inductive Given (α : Type)
  | positional (texts : List String)
  /-- An option with its value, or with a separator in the place of it. -/
  | option (meaning : α) (value : Option String)
  | stop (stop : Stop)

namespace Slot

/-- The part of a row of positional texts that a slot takes, and the rest. Separators around a text belong to it. -/
def take? (row : List (Option String)) : Slot → Option (List (Option String) × List (Option String))
  | .one =>
    match row.span Option.isNone with
    | (before, text :: rest) =>
      let (after, rest) := rest.span Option.isNone
      some (before ++ text :: after, rest)
    | (_, []) => none
  | .many => if row.any Option.isSome then some (row, []) else none

/-- The texts that a slot has taken, without one separator, which may also be a later text like it. -/
def texts (taken : List (Option String)) : List String :=
  (taken.map fun text => text.getD "--").erase "--"

/-- Fills slots from a row of positional texts: what each one takes, the slots still open, and whether texts are
left over. -/
def fill (row : List (Option String)) : List Slot → List (List String) × List Slot × Bool
  | [] => ([], [], !row.isEmpty)
  | slot :: slots =>
    match slot.take? row with
    | none => ([], slot :: slots, !row.isEmpty)
    | some (taken, rest) =>
      let (filled, stillOpen, leftOver) := fill rest slots
      (texts taken :: filled, stillOpen, leftOver)

end Slot

def notSeparator (value : String) : Option String :=
  if value = "--" then none else some value

variable {α : Type}

/-- What the arguments give to a command whose open slots are `slots`. At the end no slot may be open, and nothing
may be left over. -/
def given (slots : List Slot) (leftOver : Bool) : List (Argument α) → List (Given α)
  | [] => if leftOver || !slots.isEmpty then [.stop .usage] else []
  | .help :: _ => [.stop .help]
  | .misused :: _ => [.stop .usage]
  | .unknown :: rest => given slots true rest
  | .option meaning (some value) :: rest => .option meaning (notSeparator value) :: given slots leftOver rest
  | .option meaning none :: .plain value :: rest => .option meaning (some value) :: given slots leftOver rest
  | .option _ none :: _ => [.stop .usage]
  | first :: rest =>
    let more := rest.takeWhile fun argument => argument.positional?.isSome
    let (filled, stillOpen, extra) := Slot.fill ((first :: more).filterMap Argument.positional?) slots
    filled.map .positional ++ given stillOpen (leftOver || extra) (rest.drop more.length)
termination_by arguments => arguments.length
decreasing_by all_goals simp only [List.length_drop, List.length_cons]; omega

end Formula.Command
