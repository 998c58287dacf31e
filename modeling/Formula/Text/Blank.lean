/-!
# Blank characters

Blanks separate the lexemes of a definition and stand for nothing else. They are the horizontal and vertical
spaces, the line ends and the four information separators, in every script.
-/

namespace Formula.Text

/-- The ranges of blank code points, each with its first and its last member. -/
def blankRanges : List (Nat × Nat) :=
  [(0x09, 0x0D), (0x1C, 0x20), (0x85, 0x85), (0xA0, 0xA0), (0x1680, 0x1680), (0x2000, 0x200A),
   (0x2028, 0x2029), (0x202F, 0x202F), (0x205F, 0x205F), (0x3000, 0x3000)]

/-- A character is blank iff its code point lies in one of `blankRanges`. -/
def isBlank (c : Char) : Bool :=
  blankRanges.any fun range => range.1 ≤ c.toNat && c.toNat ≤ range.2

/-- The information separators are blank in a definition, but do not surround a number. -/
def isInformationSeparator (c : Char) : Bool :=
  0x1C ≤ c.toNat && c.toNat ≤ 0x1F

example : ("\t\n\x0b\x0c\r\x1c\x1d\x1e\x1f \u0085\u00a0\u1680\u2000\u200a\u2028\u2029\u202f\u205f\u3000".toList.all
    isBlank) = true := by decide

example : ("\x00\x08\x0e\x1b!\x7f\u0084\u00a1\u180e\u200b\u2060\ufeff".toList.any isBlank) = false := by decide

end Formula.Text
