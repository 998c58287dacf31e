import Formula.Text.Blank
import Formula.Text.Digit
import Formula.Number.Basic
/-!
# Reading numbers

A number is a sign, digits with at most one point, and a power of ten, or a name of infinity or of the undefined
value. Digits may be of any script and may be grouped by single low lines; blanks around the number are skipped.
The value is the double nearest to what is written.
-/

namespace Formula.Number

open Formula.Text

/-- The double nearest to `whole.part * 10 ^ exponent`, for two rows of plain digits. -/
def ofDecimal (whole part : List Char) (exponent : Int) : Float :=
  let power := exponent - part.length
  Float.ofScientific (ofDigits (whole ++ part)) (power < 0) power.natAbs

namespace Reading

/-- Blanks that may surround a number. -/
def surrounds (c : Char) : Bool :=
  isBlank c && !isInformationSeparator c

def trimmed (text : List Char) : List Char :=
  ((text.dropWhile surrounds).reverse.dropWhile surrounds).reverse

/-- A text without the low lines that group its digits; none if one does not stand between two digits. `last` is
the character before the text. -/
def ungrouped? (last : Char) : List Char → Option (List Char)
  | [] => if last = '_' then none else some []
  | '_' :: rest => if last.isDigit then ungrouped? '_' rest else none
  | c :: rest => if last = '_' && !c.isDigit then none else (ungrouped? c rest).map (c :: ·)

def sign : List Char → Bool × List Char
  | '-' :: rest => (true, rest)
  | '+' :: rest => (false, rest)
  | text => (false, text)

/-- The power of ten at the end of a number: none at all, or a mark, a sign and at least one digit. -/
def exponent? : List Char → Option Int
  | [] => some 0
  | mark :: rest =>
    let (negative, digits) := sign rest
    if mark.toLower = 'e' && !digits.isEmpty && digits.all Char.isDigit then
      some (if negative then -(ofDigits digits : Int) else ofDigits digits)
    else none

/-- Digits with at most one point, and a power of ten. -/
def numeral? (text : List Char) : Option Float :=
  let (whole, rest) := text.span Char.isDigit
  let (part, rest) := match rest with
    | '.' :: rest => rest.span Char.isDigit
    | _ => ([], rest)
  if whole.isEmpty && part.isEmpty then none
  else (exponent? rest).map (ofDecimal whole part)

def unsigned? (text : List Char) : Option Float :=
  let name := String.ofList (text.map Char.toLower)
  if name = "inf" || name = "infinity" then some (1 / 0)
  else if name = "nan" then some undefined
  else numeral? text

end Reading

def read? (text : String) : Option Float := do
  let plain ← Reading.ungrouped? ' ' ((Reading.trimmed text.toList).map plainDigit)
  let (negative, rest) := Reading.sign plain
  let magnitude ← Reading.unsigned? rest
  return if negative then -magnitude else magnitude

end Formula.Number
