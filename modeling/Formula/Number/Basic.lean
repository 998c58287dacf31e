/-!
# Operations on doubles that are exact

Rounding a double to a whole number and the remainder of a division lose nothing: both are computed on the
integers `m` and `e` of a finite double `± m * 2 ^ e`. There is one undefined value, `undefined`.
-/

namespace Formula.Number

open Float.Model (UnpackedFloat)

/-- The one value that is no number. -/
def undefined : Float := .ofModel (.pack .notANumber)

/-- The quotient of two natural numbers rounded to the nearest one, a half to the even neighbour. -/
def roundedQuotient (numerator denominator : Nat) : Nat :=
  let quotient := numerator / denominator
  match compare (2 * (numerator % denominator)) denominator with
  | .lt => quotient
  | .eq => quotient + quotient % 2
  | .gt => quotient + 1

/-- The natural number nearest to `m * 2 ^ e`, a half going to the even neighbour. -/
def nearestNat (m : Nat) (e : Int) : Nat :=
  if 0 ≤ e then m * Nat.pow 2 e.toNat else roundedQuotient m (Nat.pow 2 (-e).toNat)

/-- The integer nearest to a finite double, a half going to the even neighbour; nothing for the others. -/
def nearestInt? (x : Float) : Option Int :=
  match x.toModel.unpack with
  | .finite .positive m e _ => some (nearestNat m e)
  | .finite .negative m e _ => some (-(nearestNat m e))
  | .zero _ => some 0
  | _ => none

/-- A double rounded to a whole one, a half to the even neighbour; the sign stays, also on a zero. -/
def nearest (x : Float) : Float :=
  match x.toModel.unpack with
  | .finite sign m e _ => .ofModel (.pack (UnpackedFloat.round .binary64 sign (nearestNat m e) 0))
  | _ => x

/-- The remainder of `x` on division by `y`, with the quotient cut toward zero, so that it has the sign of `x`.
Both are multiples of the smaller power of two, so the remainder is exact. -/
def remainder (x y : Float) : Float :=
  match x.toModel.unpack, y.toModel.unpack with
  | .finite sign m e _, .finite _ n f _ =>
    let least := min e f
    let rest := (m * Nat.pow 2 (e - least).toNat) % (n * Nat.pow 2 (f - least).toNat)
    .ofModel (.pack (UnpackedFloat.round .binary64 sign rest least))
  | .finite .., .infinity _ | .zero _, .finite .. | .zero _, .infinity _ => x
  | _, _ => undefined

example : nearest 2.5 = 2 ∧ nearest 3.5 = 4 ∧ nearest (-0.5) = -0.0 ∧ nearest (0 / 0) = undefined := by decide

example : remainder (-7) 2 = -1 ∧ remainder 5.5 (-2) = 1.5 ∧ remainder (-6) 3 = -0.0 := by decide

example : nearestInt? 1e22 = some 10000000000000000000000 ∧ nearestInt? (1 / 0) = none := by decide

end Formula.Number
