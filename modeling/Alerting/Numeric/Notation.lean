import Alerting.Numeric.Shortest
/-!
# Float notation

How a float is written once its digits are chosen: which exponents are written positionally, how an
exponent is marked, and what stands for zero, the infinities and NaN.  Each output format is one
`Notation` value.  A key figure is shown as an integer with commas between groups of three digits,
or plainly with as many digits as it has.
-/

namespace Alerting.Numeric

structure Notation where
  /-- Leading digits with an exponent in this closed range are written positionally; all are when it
  is absent. -/
  plain : Option (Int × Int)
  /-- An integral value keeps the fraction `.0`. -/
  pointZero : Bool
  /-- What stands between the digits and a positive exponent. -/
  positiveMark : String
  /-- What stands between the digits and the magnitude of a negative exponent. -/
  negativeMark : String
  tie : Tie
  nan : String
  infinity : String

namespace Notation

private def digitChars (n : Nat) : List Char :=
  Nat.toDigits 10 n

private def zeros (n : Nat) : List Char :=
  List.replicate n '0'

private def positional (style : Notation) (d : Scientific) : List Char :=
  let ds := digitChars d.digits
  if 0 ≤ d.exponent then
    ds ++ zeros d.exponent.toNat ++ if style.pointZero then ['.', '0'] else []
  else
    let places := (-d.exponent).toNat
    let padded := zeros (places + 1 - ds.length) ++ ds
    padded.take (padded.length - places) ++ '.' :: padded.drop (padded.length - places)

private def scientific (style : Notation) (d : Scientific) (lead : Int) : List Char :=
  let mantissa := match digitChars d.digits with
    | first :: [] => [first]
    | first :: rest => first :: '.' :: rest
    | [] => []
  let mark := if 0 ≤ lead then style.positiveMark else style.negativeMark
  mantissa ++ mark.toList ++ digitChars lead.natAbs

private def magnitude (style : Notation) (d : Scientific) : List Char :=
  let lead := d.exponent + (digitChars d.digits).length - 1
  match style.plain with
  | none => style.positional d
  | some (least, greatest) =>
    if least ≤ lead && lead ≤ greatest then style.positional d else style.scientific d lead

def write (style : Notation) (x : Float) : String :=
  match Binary.ofFloat? x with
  | some b =>
    let text := style.magnitude (b.shortest style.tie)
    String.ofList (if b.negative then '-' :: text else text)
  | none =>
    if x.isNaN then style.nan
    else if x < 0 then "-" ++ style.infinity else style.infinity

end Notation

/-- Floats in running text: always positional, integers without a point. -/
def plainNotation : Notation where
  plain := none
  pointZero := false
  positiveMark := "e"
  negativeMark := "e-"
  tie := .away
  nan := "NaN"
  infinity := "inf"

/-! ## Figures for people -/

/-- Puts a comma before every third character, counted from the right. -/
def groupThousands (digits : List Char) : List Char :=
  match digits with
  | [] => []
  | d :: ds =>
    if ds.length % 3 = 0 && !ds.isEmpty then d :: ',' :: groupThousands ds
    else d :: groupThousands ds

def groupedInt (n : Int) : String :=
  let digits := groupThousands (Nat.toDigits 10 n.natAbs)
  String.ofList (if n < 0 then '-' :: digits else digits)

/-- The nearest integer to a finite float within 64 bits; a half goes away from zero. -/
def roundToInt64 (b : Binary) : Int :=
  max (-(Nat.pow 2 63 : Int)) (min ((Nat.pow 2 63 : Int) - 1) b.round)

/-- A figure without decimals, with commas; what is not finite counts as zero. -/
def groupedFigure (x : Float) : String :=
  match Binary.ofFloat? x with
  | some b => groupedInt (roundToInt64 b)
  | none => "0"

/-- A figure as it is: integers below `10 ^ 15` as such, all others positionally. -/
def plainFigure (x : Float) : String :=
  match (Binary.ofFloat? x).bind Binary.toInt? with
  | some n => if n.natAbs < Nat.pow 10 15 then toString n else plainNotation.write x
  | none => plainNotation.write x

end Alerting.Numeric
