import Alerting.Calendar
import Alerting.Json.Value
import Alerting.Numeric.Decimal
import Alerting.Toml.Quoted
/-!
# TOML scalars

Words, numbers and points of time.  They are written without spaces, except that a space may stand
between a date and a time.
-/

namespace Alerting.Toml

open Numeric

def groupedDigits? (digit : Char → Option Nat) : List Char → Option (List Nat)
  | [] => none
  | [c] => (digit c).map ([·])
  | c :: '_' :: rest => do return (← digit c) :: (← groupedDigits? digit rest)
  | c :: rest => do return (← digit c) :: (← groupedDigits? digit rest)

def smallDigit? (base : Nat) (c : Char) : Option Nat :=
  (digit? c).filter (· < base)

def ofBase (base : Nat) (digits : List Nat) : Nat :=
  digits.foldl (fun n d => base * n + d) 0

def splitSign : List Char → Bool × List Char
  | '-' :: cs => (true, cs)
  | '+' :: cs => (false, cs)
  | cs => (false, cs)

/-- Decimal digits without a leading zero. -/
def wholeDigits? (cs : List Char) : Option (List Nat) := do
  let ds ← groupedDigits? digit? cs
  match ds with
  | 0 :: _ :: _ => none
  | ds => some ds

def integer? (cs : List Char) : Option Int := do
  let n : Int ← match cs with
    | '0' :: 'x' :: cs => (groupedDigits? hexDigit? cs).map fun ds => (ofBase 16 ds : Int)
    | '0' :: 'o' :: cs => (groupedDigits? (smallDigit? 8) cs).map fun ds => (ofBase 8 ds : Int)
    | '0' :: 'b' :: cs => (groupedDigits? (smallDigit? 2) cs).map fun ds => (ofBase 2 ds : Int)
    | cs =>
      let (negative, cs) := splitSign cs
      (wholeDigits? cs).map fun ds => if negative then -(ofBase 10 ds : Int) else ofBase 10 ds
  if -(Nat.pow 2 63 : Int) ≤ n && n < Nat.pow 2 63 then some n else none

/-- The exponent of a float; the text is empty where there is none. -/
def exponent? : List Char → Option Int
  | [] => some 0
  | _ :: cs => do
    let (negative, cs) := splitSign cs
    let n : Int := ofBase 10 (← groupedDigits? digit? cs)
    return if negative then -n else n

/-- The float of a text with a point or an exponent, and of the words for infinity and for what is
no number. -/
def float? (cs : List Char) : Option Float := do
  let (negative, cs) := splitSign cs
  let isMark (c : Char) : Bool := c = 'e' || c = 'E'
  let magnitude : Float ←
    if cs = "inf".toList then pure (1 / 0)
    else if cs = "nan".toList then pure (0 / 0)
    else do
      let mantissa := cs.takeWhile (!isMark ·)
      let exponent ← exponent? (cs.dropWhile (!isMark ·))
      let whole ← wholeDigits? (mantissa.takeWhile (· ≠ '.'))
      let fraction ← match mantissa.dropWhile (· ≠ '.') with
        | [] => pure []
        | _ :: cs => groupedDigits? digit? cs
      let scale := exponent - fraction.length
      let x := Float.ofScientific (ofBase 10 (whole ++ fraction)) (scale < 0) scale.natAbs
      if x.isFinite then some x else none
  return if negative then -magnitude else magnitude

/-! ## Points of time -/

def fixed? (width : Nat) (cs : List Char) : Option (Nat × List Char) := do
  let ds ← (cs.take width).mapM digit?
  if ds.length = width then some (ofDigits ds, cs.drop width) else none

def after? (c : Char) : List Char → Option (List Char)
  | [] => none
  | d :: cs => if d = c then some cs else none

def skipDate? (cs : List Char) : Option (List Char) := do
  let (year, cs) ← fixed? 4 cs
  let (month, cs) ← fixed? 2 (← after? '-' cs)
  let (day, cs) ← fixed? 2 (← after? '-' cs)
  let _ ← Date.ofParts? year month day
  return cs

def skipTime? (cs : List Char) : Option (List Char) := do
  let (hour, cs) ← fixed? 2 cs
  let (minute, cs) ← fixed? 2 (← after? ':' cs)
  let (second, cs) ← fixed? 2 (← after? ':' cs)
  guard (hour < 24 && minute < 60 && second ≤ 60)
  match cs with
  | '.' :: cs =>
    match spanDigits cs with
    | ([], _) => none
    | (_, rest) => some rest
  | cs => some cs

def isOffset (cs : List Char) : Bool :=
  match cs with
  | [] | ['Z'] | ['z'] => true
  | sign :: cs =>
    (sign = '+' || sign = '-') &&
      match fixed? 2 cs with
      | some (hour, ':' :: cs) =>
        hour < 24 && (fixed? 2 cs).any fun (minute, rest) => minute < 60 && rest.isEmpty
      | _ => false

def isMoment (cs : List Char) : Bool :=
  match skipDate? cs with
  | some [] => true
  | some (mark :: cs) => (mark = 'T' || mark = 't' || mark = ' ') && (skipTime? cs).any isOffset
  | none => (skipTime? cs).any (·.isEmpty)

/-- A point of time as JSON: an object, because JSON knows no points of time. -/
def momentJson (cs : List Char) : Json :=
  .object [("date-time", .string (String.ofList cs))]

/-! ## Scalars in a text -/

def isScalarChar (c : Char) : Bool :=
  c.isAlphanum || c = '+' || c = '-' || c = '_' || c = '.' || c = ':'

def scalarOf? (cs : List Char) : Option Json :=
  if cs = "true".toList then some (.bool true)
  else if cs = "false".toList then some (.bool false)
  else
    match integer? cs with
    | some n => some (.int n)
    | none =>
      match float? cs with
      | some x => some (.number (.float x))
      | none => if isMoment cs then some (momentJson cs) else none

def scalar (cs : List Char) : Option (Json × List Char) :=
  let word := cs.takeWhile isScalarChar
  let rest := cs.dropWhile isScalarChar
  match skipDate? word, rest with
  | some [], ' ' :: c :: more =>
    if c.isDigit then
      let time := (c :: more).takeWhile isScalarChar
      (scalarOf? (word ++ ' ' :: time)).map (·, (c :: more).dropWhile isScalarChar)
    else (scalarOf? word).map (·, rest)
  | _, _ => (scalarOf? word).map (·, rest)

end Alerting.Toml
