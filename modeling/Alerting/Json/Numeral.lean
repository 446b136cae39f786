import Alerting.Json.Fault
import Alerting.Numeric.Decimal
/-!
# JSON numerals

The grammar of number literals and their values.  A literal without fraction and exponent that fits
64 bits is an integer.  Any other is a float: its first digits, as many as fit an unsigned 64-bit
significand, are scaled by the power of ten that the remaining digits and the exponent leave.
-/

namespace Alerting.Json

open Numeric

structure Numeral where
  negative : Bool
  /-- The digits before the point. -/
  whole : List Nat
  /-- The digits after the point; absent when there is no point. -/
  fraction : Option (List Nat)
  exponent : Option Int
deriving DecidableEq, Repr

namespace Numeral

def digits (cs : List Char) : Except Halt (List Nat × List Char) :=
  match spanDigits cs with
  | ([], []) => .error (.atFlaw .endInValue [])
  | ([], rest) => .error (.atNext .badNumber rest)
  | found => .ok found

/-- The digits before the point; after a leading zero there are no more. -/
def scanWhole (cs : List Char) : Except Halt (List Nat × List Char) := do
  let (ds, rest) ← digits cs
  match ds with
  | 0 :: _ :: _ => .error (.atNext .badNumber (cs.drop 1))
  | _ => .ok (ds, rest)

def scanFraction : List Char → Except Halt (Option (List Nat) × List Char)
  | '.' :: cs => do
    let (ds, rest) ← digits cs
    return (some ds, rest)
  | cs => .ok (none, cs)

def scanMinus : List Char → Bool × List Char
  | '-' :: cs => (true, cs)
  | cs => (false, cs)

def scanSign : List Char → Bool × List Char
  | '+' :: cs => (false, cs)
  | cs => scanMinus cs

def scanExponent (cs : List Char) : Except Halt (Option Int × List Char) :=
  match cs with
  | mark :: cs =>
    if mark = 'e' || mark = 'E' then do
      let (negative, cs) := scanSign cs
      let (ds, rest) ← digits cs
      return (some (if negative then -(ofDigits ds : Int) else ofDigits ds), rest)
    else .ok (none, mark :: cs)
  | [] => .ok (none, [])

def scan (cs : List Char) : Except Halt (Numeral × List Char) := do
  let (negative, cs) := scanMinus cs
  let (whole, cs) ← scanWhole cs
  let (fraction, cs) ← scanFraction cs
  let (exponent, cs) ← scanExponent cs
  return (⟨negative, whole, fraction, exponent⟩, cs)

def maxSignificand : Nat := Nat.pow 2 64 - 1

/-- Takes digits into the significand as long as they fit, and counts those left over. -/
def absorb : Nat → List Nat → Nat × Nat
  | significand, [] => (significand, 0)
  | significand, d :: ds =>
    if 10 * significand + d ≤ maxSignificand then absorb (10 * significand + d) ds
    else (significand, ds.length + 1)

/-- The power of ten nearest to `10 ^ n`. -/
def powerOfTen (n : Nat) : Float :=
  .ofScientific 1 false n

/-- The significand times a power of ten, and `none` beyond the greatest float.  Small numbers take
two divisions. -/
def scale (significand : Nat) (exponent : Int) : Option Float :=
  let x := Float.ofNat significand
  if significand = 0 then some 0
  else if 308 < exponent then none
  else if 0 ≤ exponent then
    let scaled := x * powerOfTen exponent.toNat
    if scaled.isFinite then some scaled else none
  else if -308 ≤ exponent then some (x / powerOfTen (-exponent).toNat)
  else if -616 ≤ exponent then some (x / powerOfTen 308 / powerOfTen (-exponent - 308).toNat)
  else some 0

/-- The number that the literal stands for, and `none` when it lies beyond the greatest float.
There is no negative zero among the integers, so the literal `-0` is a float. -/
def value? (lit : Numeral) : Option Number :=
  let (whole, wholeLeft) := absorb 0 lit.whole
  if lit.fraction.isNone && lit.exponent.isNone && wholeLeft = 0 then
    if !lit.negative then some (.int whole)
    else if whole = 0 || Nat.pow 2 63 < whole then some (.float (-Float.ofNat whole))
    else some (.int (-whole))
  else
    let fraction := lit.fraction.getD []
    let (significand, fractionLeft) := absorb whole fraction
    let places : Int := fraction.length - fractionLeft
    let exponent := wholeLeft - places + lit.exponent.getD 0
    (scale significand exponent).map fun x => .float (if lit.negative then -x else x)

end Numeral

end Alerting.Json
