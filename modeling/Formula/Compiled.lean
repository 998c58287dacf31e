import Formula.Code.Machine
import Formula.Definition.Tokens
/-!
# Compiled functions

A definition is compiled once and evaluated at any number of points. A definition with a fault compiles too: the
result keeps the fault, has no code, and is undefined everywhere.
-/

namespace Formula

/-- A definition with its code, or with the reason why it has none. -/
structure Compiled where
  definition : String
  code : Code := []
  rejection : Option Rejection := none

namespace Compiled

/-- A valid function has code and no fault. -/
def isValid (compiled : Compiled) : Bool :=
  !compiled.code.isEmpty && compiled.rejection.isNone

/-- The position of the fault, or -1. -/
def errorPosition (compiled : Compiled) : Int :=
  match compiled.rejection with
  | some rejection => rejection.position
  | none => -1

def errorReason (compiled : Compiled) : String :=
  match compiled.rejection with
  | some rejection => rejection.fault.reason
  | none => ""

def errorKind? (compiled : Compiled) : Option Fault.Kind :=
  compiled.rejection.map fun rejection => rejection.fault.kind

def codeText (compiled : Compiled) : String :=
  Token.spellings compiled.code

def describe (compiled : Compiled) : String :=
  if compiled.isValid then "" else failureText (toString compiled.errorPosition) compiled.errorReason

/-- The value at `x`; an invalid function is undefined everywhere. -/
def evaluate (compiled : Compiled) (x : Float) : Report EvaluationError Float :=
  if compiled.isValid then compiled.code.evaluate x else pure Number.undefined

end Compiled

/-- Compiles a definition. A fault of the definition is part of the result and no failure. -/
def compile (definition : String) : Report ConversionError Compiled :=
  match tokenize definition with
  | .error rejection =>
    ⟨.ok { definition, rejection := some rejection },
      [.rejected definition rejection.position rejection.fault.reason]⟩
  | .ok tokens => do
    Report.note (.accepted definition tokens.length)
    let code ← Code.ofTokens tokens
    return { definition, code }

/-- Compiles a definition that may not be given, which is the same as an empty one. -/
def compileGiven (definition : Option String) : Report ConversionError Compiled :=
  compile (definition.getD "")

end Formula
