import Alerting.Numeric.Shortest
import Alerting.Text.Basic
/-!
# Decimal texts

The number that a text such as `1,234.5` stands for.  Most texts are read as a decimal of at most 96
bits with at most 28 places, which is then turned into a float.  What no such decimal can hold is
read as a float directly.
-/

namespace Alerting.Numeric

/-! ## Digits -/

def digit? (c : Char) : Option Nat :=
  if c.isDigit then some (c.toNat - '0'.toNat) else none

def spanDigits : List Char → List Nat × List Char
  | [] => ([], [])
  | c :: cs =>
    match digit? c with
    | some d => let (ds, rest) := spanDigits cs; (d :: ds, rest)
    | none => ([], c :: cs)

def ofDigits (ds : List Nat) : Nat :=
  ds.foldl (fun n d => 10 * n + d) 0

/-! ## Decimals -/

/-- The decimal `± digits / 10 ^ places`. -/
structure Decimal where
  negative : Bool
  digits : Nat
  places : Nat
deriving DecidableEq, Repr

namespace Decimal

def limit : Nat := Nat.pow 2 96

def maxPlaces : Nat := 28

/-- What has been read of a decimal: its coefficient, the places after the point once the point was
met, and whether there was a digit yet. -/
structure Progress where
  digits : Nat
  places : Option Nat
  started : Bool

def isFiller (c : Char) : Bool :=
  (digit? c).isSome || c = '_'

/-- Ends a decimal at the first digit that it has no room for, which rounds it.  Of the others none
counts, but nothing else may stand among them. -/
def Progress.roundBy (p : Progress) (d : Nat) (rest : List Char) : Option (Nat × Nat) :=
  let places := p.places.getD 0
  if !rest.all isFiller then none
  else if d < 5 then some (p.digits, places)
  else if p.digits + 1 < limit then some (p.digits + 1, places)
  else if places = 0 then none
  else some ((p.digits + 5) / 10, places - 1)

/-- Reads digits, at most one point, and separators after the first digit. -/
def readUnsigned (p : Progress) : List Char → Option (Nat × Nat)
  | [] => if p.started then some (p.digits, p.places.getD 0) else none
  | c :: cs =>
    match digit? c with
    | some d =>
      if !p.places.any (maxPlaces ≤ ·) && 10 * p.digits + d < limit then
        readUnsigned ⟨10 * p.digits + d, p.places.map (· + 1), true⟩ cs
      else if p.places.isSome then p.roundBy d cs
      else none
    | none =>
      if c = '.' && p.places.isNone then readUnsigned { p with places := some 0 } cs
      else if c = '_' && p.started then readUnsigned p cs
      else none

def make (negative : Bool) (coefficient : Nat × Nat) : Decimal :=
  ⟨negative && coefficient.1 ≠ 0, coefficient.1, coefficient.2⟩

def ofChars? : List Char → Option Decimal
  | '-' :: cs => (readUnsigned ⟨0, none, false⟩ cs).map (make true)
  | '+' :: cs => (readUnsigned ⟨0, none, false⟩ cs).map (make false)
  | cs => (readUnsigned ⟨0, none, false⟩ cs).map (make false)

/-- The number that digits with an optional leading plus sign stand for, below `2 ^ 32`. -/
def exponent? (cs : List Char) : Option Nat :=
  let ds := match cs with
    | '+' :: ds => ds
    | ds => ds
  match spanDigits ds with
  | ([], _) => none
  | (_, _ :: _) => none
  | (digits, []) =>
    let n := ofDigits digits
    if n < Nat.pow 2 32 then some n else none

/-- Moves the point of a decimal by an exponent, if the result is still a decimal and the exponent
no greater than the places that one can have. -/
def shift (d : Decimal) (negative : Bool) (exponent : Nat) : Option Decimal :=
  if negative then
    if d.places + exponent ≤ maxPlaces then some { d with places := d.places + exponent } else none
  else if exponent ≤ d.places then some { d with places := d.places - exponent }
  else if maxPlaces < exponent then none
  else
    let digits := d.digits * Nat.pow 10 (exponent - d.places)
    if digits < limit then some ⟨d.negative, digits, 0⟩ else none

def shiftBy? (d : Decimal) : List Char → Option Decimal
  | '-' :: ds => (exponent? ds).bind (d.shift true)
  | ds => (exponent? ds).bind (d.shift false)

def ofScientific? (cs : List Char) : Option Decimal :=
  let isMark (c : Char) : Bool := c = 'e' || c = 'E'
  match cs.dropWhile (!isMark ·) with
  | [] => none
  | _ :: exponent => (ofChars? (cs.takeWhile (!isMark ·))).bind (·.shiftBy? exponent)

/-- The float of a decimal.  The fraction is divided on its own, and the sum is brought back to the
number of places that the decimal has. -/
def toFloat (d : Decimal) : Float :=
  let power := Nat.pow 10 d.places
  let whole := Float.ofNat (d.digits / power)
  let magnitude :=
    if d.digits % power = 0 then whole
    else
      let scale := Float.ofNat power
      let sum := whole + Float.ofNat (d.digits % power) / scale
      match Binary.ofFloat? (sum * scale) with
      | some b => Float.ofInt b.round / scale
      | none => sum
  if d.negative then -magnitude else magnitude

end Decimal

/-! ## Floats -/

def Scientific.toFloat (d : Scientific) : Float :=
  let lead := d.exponent + (Nat.toDigits 10 d.digits).length
  if d.digits = 0 || lead < -400 then 0
  else if 400 < lead then 1 / 0
  else .ofScientific d.digits (d.exponent < 0) d.exponent.natAbs

def spanFraction : List Char → List Nat × List Char
  | '.' :: cs => spanDigits cs
  | cs => ([], cs)

/-- Reads the exponent that a float ends with; without one it is zero. -/
def floatExponent? : List Char → Option Int
  | [] => some 0
  | mark :: cs =>
    if mark = 'e' || mark = 'E' then
      let (negative, cs) := match cs with
        | '-' :: cs => (true, cs)
        | '+' :: cs => (false, cs)
        | cs => (false, cs)
      match spanDigits cs with
      | ([], _) => none
      | (_, _ :: _) => none
      | (ds, []) => some (if negative then -(ofDigits ds : Int) else ofDigits ds)
    else none

def floatOfUnsigned? (cs : List Char) : Option Float := do
  let (whole, rest) := spanDigits cs
  let (fraction, rest) := spanFraction rest
  if whole.isEmpty && fraction.isEmpty then none
  let exponent ← floatExponent? rest
  return Scientific.toFloat ⟨ofDigits (whole ++ fraction), exponent - fraction.length⟩

def floatOfChars? (cs : List Char) : Option Float :=
  let x := match cs with
    | '-' :: cs => (floatOfUnsigned? cs).map (-·)
    | '+' :: cs => floatOfUnsigned? cs
    | cs => floatOfUnsigned? cs
  x.filter (·.isFinite)

/-- The number in a text, which may be surrounded by white space and have commas between its
digits. -/
def ofText? (s : String) : Option Float :=
  let cs := (Text.trimChars s.toList).filter (· ≠ ',')
  if cs.isEmpty then none
  else match Decimal.ofChars? cs with
    | some d => some d.toFloat
    | none =>
      match Decimal.ofScientific? cs with
      | some d => some d.toFloat
      | none => floatOfChars? cs

end Alerting.Numeric
