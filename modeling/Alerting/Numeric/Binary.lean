/-!
# Finite binary numbers

A finite 64-bit float is `± significand · 2 ^ exponent`.  `Binary.ofFloat?` reads these parts off
the bits, so that digits and rounding can be decided by exact integer arithmetic.
-/

namespace Alerting.Numeric

/-- The number `± significand · 2 ^ exponent`. -/
structure Binary where
  negative : Bool
  significand : Nat
  exponent : Int
  /-- The next float below is half as far away as the next one above. -/
  narrowBelow : Bool
deriving DecidableEq, Repr

namespace Binary

/-- The parts of a finite float, and `none` for an infinity or a NaN. -/
def ofFloat? (x : Float) : Option Binary :=
  let bits := x.toBits.toNat
  let negative := bits / Nat.pow 2 63 == 1
  let exponent : Nat := bits / Nat.pow 2 52 % Nat.pow 2 11
  let fraction : Nat := bits % Nat.pow 2 52
  if exponent = 2047 then none
  else if exponent = 0 then some ⟨negative, fraction, -1074, false⟩
  else
    some ⟨negative, Nat.pow 2 52 + fraction, (exponent : Int) - 1075,
      fraction == 0 && exponent > 1⟩

/-- The nearest integer to the magnitude; a half goes up. -/
def roundMagnitude (x : Binary) : Nat :=
  let below := Nat.pow 2 (-x.exponent).toNat
  (2 * x.significand * Nat.pow 2 x.exponent.toNat + below) / (2 * below)

def round (x : Binary) : Int :=
  if x.negative then -x.roundMagnitude else x.roundMagnitude

/-- The integer that the number is, if it has no fraction. -/
def toInt? (x : Binary) : Option Int :=
  let below := Nat.pow 2 (-x.exponent).toNat
  let magnitude := x.significand * Nat.pow 2 x.exponent.toNat
  if magnitude % below = 0 then
    some (if x.negative then -(magnitude / below : Nat) else (magnitude / below : Nat))
  else none

end Binary

end Alerting.Numeric
