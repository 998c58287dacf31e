import Formula.Number.Decimal
/-!
# How a double is written

A decimal is written out in full while its exponent is moderate, and as digits and a power of ten otherwise. Two
layouts are in use: the exact one (`exact`), whose text reads back to the same double, and the general one
(`general`), which keeps a given number of significant digits.
-/

namespace Formula.Number

open Float.Model (UnpackedFloat)

/-- When a decimal is written out in full, and whether a whole one then keeps a point. -/
structure Layout where
  /-- The exponent at which the power of ten begins to be written. -/
  powerFrom : Int
  keepsPoint : Bool

namespace Layout

/-- Small decimals are written out in full down to this exponent. -/
def leastExponent : Int := -4

/-- An exponent with its sign and at least two digits. -/
def exponentText (exponent : Int) : String :=
  let digits := toString exponent.natAbs
  (if exponent < 0 then "-" else "+") ++ (if exponent.natAbs < 10 then "0" else "") ++ digits

def withPower (d : Decimal) : String :=
  let rest := d.digits.drop 1
  String.ofList (d.digits.take 1) ++ (if rest.isEmpty then "" else "." ++ String.ofList rest) ++
    "e" ++ exponentText d.exponent

def inFull (layout : Layout) (d : Decimal) : String :=
  let zeros (n : Nat) := List.replicate n '0'
  if d.exponent < 0 then
    "0." ++ String.ofList (zeros (-d.exponent - 1).toNat ++ d.digits)
  else
    let places := d.exponent.toNat + 1
    let whole := d.digits.take places ++ zeros (places - d.digits.length)
    let rest := d.digits.drop places
    String.ofList whole ++
      (if rest.isEmpty then (if layout.keepsPoint then ".0" else "") else "." ++ String.ofList rest)

def write (layout : Layout) (d : Decimal) : String :=
  if leastExponent ≤ d.exponent && d.exponent < layout.powerFrom then layout.inFull d else withPower d

end Layout

/-- A double in a layout, with `digits` choosing the decimal of a finite one. -/
def write (layout : Layout) (digits : Nat → Int → Decimal) (x : Float) : String :=
  match x.toModel.unpack with
  | .notANumber => "nan"
  | .infinity .positive => "inf"
  | .infinity .negative => "-inf"
  | .zero .positive => layout.write ⟨['0'], 0⟩
  | .zero .negative => "-" ++ layout.write ⟨['0'], 0⟩
  | .finite .positive m e _ => layout.write (digits m e)
  | .finite .negative m e _ => "-" ++ layout.write (digits m e)

/-- The shortest text that reads back to the same double. A whole number keeps a point, and powers of ten begin
at `1e+16`. -/
def exact (x : Float) : String :=
  write ⟨16, true⟩ Decimal.shortest x

/-- A double rounded to `places` significant digits. Powers of ten begin where the digits would not reach the
point. -/
def general (places : Nat) (x : Float) : String :=
  write ⟨places, false⟩ (Decimal.rounded places) x

end Formula.Number
