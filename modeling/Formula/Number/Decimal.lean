import Formula.Number.Basic
/-!
# Decimals

A double in decimal: the fewest digits that read back to it, or a given number of significant digits. Both are
found on the exact value `m * 2 ^ e`, by arithmetic on natural numbers alone.
-/

namespace Formula.Number

open Float.Model (UnpackedFloat)

/-- The decimal `d₁.d₂d₃… * 10 ^ exponent` of the digits `d₁ d₂ d₃ …`. -/
structure Decimal where
  digits : List Char
  exponent : Int
deriving DecidableEq, Repr

namespace Decimal

/-- The decimal `coefficient * 10 ^ power`, without trailing zeros. -/
def ofCoefficient (coefficient : Nat) (power : Int) : Decimal :=
  let digits := Nat.toDigits 10 coefficient
  { digits := if coefficient = 0 then ['0'] else (digits.reverse.dropWhile (· = '0')).reverse
    exponent := if coefficient = 0 then 0 else power + digits.length - 1 }

/-- A power of two or of ten as a fraction. -/
def fraction (m : Nat) (base : Nat) (e : Int) : Nat × Nat :=
  if 0 ≤ e then (m * Nat.pow base e.toNat, 1) else (m, Nat.pow base (-e).toNat)

/-- Whether `10 ^ power` is at most the fraction. -/
def tenPowerLe (power : Int) (value : Nat × Nat) : Bool :=
  let ten := fraction 1 10 power
  ten.1 * value.2 ≤ value.1 * ten.2

/-- The exponent of the first digit of a positive fraction. The estimate from the number of bits is at most one
off. -/
def leadingExponent (value : Nat × Nat) : Int :=
  let estimate := (((value.1.log2 : Int) - value.2.log2) * 30103).fdiv 100000
  if !tenPowerLe estimate value then estimate - 1
  else if tenPowerLe (estimate + 1) value then estimate + 1
  else estimate

/-- A positive fraction in units of `10 ^ power`, as a fraction. -/
def inUnits (value : Nat × Nat) (power : Int) : Nat × Nat :=
  let ten := fraction 1 10 power
  (value.1 * ten.2, value.2 * ten.1)

/-- `m * 2 ^ e` rounded to `places` significant digits, a half to the even neighbour. -/
def rounded (places : Nat) (m : Nat) (e : Int) : Decimal :=
  let value := fraction m 2 e
  let power := leadingExponent value + 1 - places
  let scaled := inUnits value power
  ofCoefficient (roundedQuotient scaled.1 scaled.2) power

/-- The reals that read back as a double, in quarters of a unit of its last place: the distances down and up from
the double, and whether the two ends belong to them. Below a power of two the doubles lie twice as close. -/
structure Reach where
  down : Nat
  up : Nat
  closed : Bool

def reach (m : Nat) (e : Int) : Reach :=
  { down := if m = Nat.pow 2 52 && e > -1074 then 1 else 2
    up := 2
    closed := m % 2 = 0 }

/-- Whether `coefficient * 10 ^ power` reads back as `m * 2 ^ e`. -/
def readsBack (m : Nat) (e : Int) (coefficient : Nat) (power : Int) : Bool :=
  let r := reach m e
  let low := fraction (4 * m - r.down) 2 (e - 2)
  let high := fraction (4 * m + r.up) 2 (e - 2)
  let candidate := fraction coefficient 10 power
  let left := low.1 * candidate.2
  let mid (bound : Nat × Nat) := candidate.1 * bound.2
  let right := high.1 * candidate.2
  if r.closed then left ≤ mid low && mid high ≤ right else left < mid low && mid high < right

/-- The multiple of `10 ^ power` that reads back as `m * 2 ^ e`, if there is one: of two the nearer, of two
equally near the even one. -/
def onGrid? (m : Nat) (e : Int) (power : Int) : Option Nat :=
  let scaled := inUnits (fraction m 2 e) power
  let below := scaled.1 / scaled.2
  let near := roundedQuotient scaled.1 scaled.2
  let far := if near = below then below + 1 else below
  [near, far].find? fun coefficient => readsBack m e coefficient power

/-- The decimal with the fewest digits that reads back as `m * 2 ^ e`; seventeen digits always do. -/
def shortest (m : Nat) (e : Int) : Decimal :=
  let lead := leadingExponent (fraction m 2 e)
  let found := (List.range 17).findSome? fun (n : Nat) =>
    (onGrid? m e (lead - n)).map (ofCoefficient · (lead - n))
  found.getD (rounded 17 m e)

end Decimal

end Formula.Number
