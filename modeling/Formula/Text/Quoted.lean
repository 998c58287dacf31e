import Formula.Text.Printable
/-!
# Quoted text

A text between quotes on one line, in which every character can be seen. The single quote is used unless the
text holds one and no double quote.
-/

namespace Formula.Text

/-- The last `width` hexadecimal digits of `n`, in lower case. -/
def hexadecimal : Nat → Nat → List Char
  | 0, _ => []
  | width + 1, n => hexadecimal width (n / 16) ++ [Nat.digitChar (n % 16)]

/-- One character between quotes `quote`: the quote and the backslash are marked by a backslash, and what is
not printable is written by name or by its code point. -/
def quotedChar (quote c : Char) : List Char :=
  if c = quote || c = '\\' then ['\\', c]
  else if c = '\t' then ['\\', 't']
  else if c = '\n' then ['\\', 'n']
  else if c = '\r' then ['\\', 'r']
  else if isPrintable c then [c]
  else if c.toNat < 0x100 then '\\' :: 'x' :: hexadecimal 2 c.toNat
  else if c.toNat < 0x10000 then '\\' :: 'u' :: hexadecimal 4 c.toNat
  else '\\' :: 'U' :: hexadecimal 8 c.toNat

def quoted (text : String) : String :=
  let characters := text.toList
  let quote := if characters.contains '\'' && !characters.contains '"' then '"' else '\''
  String.ofList (quote :: characters.flatMap (quotedChar quote) ++ [quote])

end Formula.Text
