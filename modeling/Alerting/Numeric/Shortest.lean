import Alerting.Numeric.Binary
/-!
# Shortest decimals

The decimal with the fewest digits that lies among the reals which round to a given float.  The
search goes through the decimal grids from coarse to fine and tests, in exact arithmetic, the two
neighbours of the number on each grid.  On the first grid with a hit the nearer one wins.
-/

namespace Alerting.Numeric

/-- The number `digits · 10 ^ exponent`. -/
structure Scientific where
  digits : Nat
  exponent : Int
deriving DecidableEq, Repr

inductive Tie where
  | toEven
  | away
deriving DecidableEq, Repr

namespace Binary

/-- The magnitude counted in quarter steps of the grid `10 ^ place`, as a quotient. -/
private structure OnGrid where
  value : Nat
  low : Nat
  high : Nat
  unit : Nat

private def onGrid (x : Binary) (place : Int) : OnGrid :=
  let scale := Nat.pow 2 x.exponent.toNat * Nat.pow 10 (-place).toNat
  { value := 4 * x.significand * scale
    low := (4 * x.significand - if x.narrowBelow then 1 else 2) * scale
    high := (4 * x.significand + 2) * scale
    unit := 4 * (Nat.pow 2 (-x.exponent).toNat * Nat.pow 10 place.toNat) }

/-- Whether `d` steps of the grid read back as the number.  The ends of the interval belong to the
number with the even significand. -/
private def OnGrid.readsBack (g : OnGrid) (even : Bool) (d : Nat) : Bool :=
  if even then g.low ≤ d * g.unit && d * g.unit ≤ g.high
  else g.low < d * g.unit && d * g.unit < g.high

private def nearestOn (tie : Tie) (x : Binary) (place : Int) : Option Nat :=
  let g := x.onGrid place
  let below := g.value / g.unit
  let even := x.significand % 2 == 0
  match g.readsBack even below, g.readsBack even (below + 1) with
  | false, false => none
  | true, false => some below
  | false, true => some (below + 1)
  | true, true =>
    match compare (2 * g.value) ((2 * below + 1) * g.unit), tie with
    | .lt, _ => some below
    | .gt, _ => some (below + 1)
    | .eq, .away => some (below + 1)
    | .eq, .toEven => some (if below % 2 = 0 then below else below + 1)

private def belowPower (x : Binary) (k : Int) : Bool :=
  x.significand * Nat.pow 2 x.exponent.toNat * Nat.pow 10 (-k).toNat
    < Nat.pow 2 (-x.exponent).toNat * Nat.pow 10 k.toNat

/-- The number of digits before the point: the least `k` with the magnitude below `10 ^ k`.  The
binary logarithm gives it up to a few steps. -/
private def magnitudeDigits (x : Binary) : Int :=
  let estimate := Int.fdiv ((x.significand.log2 + x.exponent) * 30103) 100000
  ((List.range 4).map fun (i : Nat) => estimate + i).find? (x.belowPower ·) |>.getD (estimate + 4)

private def stripZeros : Nat → Scientific → Scientific
  | 0, d => d
  | fuel + 1, d =>
    if d.digits % 10 = 0 && d.digits ≠ 0 then stripZeros fuel ⟨d.digits / 10, d.exponent + 1⟩ else d

/-- The shortest decimal that reads back as the magnitude of the number. -/
def shortest (tie : Tie) (x : Binary) : Scientific :=
  if x.significand = 0 then ⟨0, 0⟩
  else
    let k := x.magnitudeDigits
    let found := (List.range 17).findSome? fun (n : Nat) =>
      (x.nearestOn tie (k - (n + 1))).map (Scientific.mk · (k - (n + 1)))
    match found with
    | some d => stripZeros 20 d
    -- seventeen digits always suffice; the exact decimal stands in for the other case
    | none =>
      ⟨x.significand * Nat.pow 2 x.exponent.toNat * Nat.pow 5 (-x.exponent).toNat,
        min 0 x.exponent⟩

end Binary

end Alerting.Numeric
