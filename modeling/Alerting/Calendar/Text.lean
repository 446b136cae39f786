import Alerting.Calendar
import Alerting.Numeric.Decimal
import Alerting.Text.Basic
/-!
# Dates as text

Dates are written as `2024-03-05`, with a sign before years that do not have four digits.  They are
read from the same form, with or without a time of day, and then shown in words.
-/

namespace Alerting

def Numeric.padded (width n : Nat) : String :=
  let digits := Nat.toDigits 10 n
  String.ofList (List.replicate (width - digits.length) '0' ++ digits)

namespace Date

open Numeric

private def monthNames : List String :=
  ["January", "February", "March", "April", "May", "June", "July", "August", "September", "October",
   "November", "December"]

def monthName (d : Date) : String :=
  monthNames.getD (d.month - 1) ""

/-- The year with at least four digits, signed if it is negative or longer. -/
def yearText (d : Date) : String :=
  let sign := if d.year < 0 then "-" else if 9999 < d.year then "+" else ""
  sign ++ padded 4 d.year.natAbs

def text (d : Date) : String :=
  d.yearText ++ "-" ++ padded 2 d.month ++ "-" ++ padded 2 d.day

def monthText (d : Date) : String :=
  d.yearText ++ "-" ++ padded 2 d.month

def inWords (d : Date) : String :=
  String.ofList (d.monthName.toList.take 3) ++ " " ++ toString d.day ++ ", " ++ d.yearText

def monthInWords (d : Date) : String :=
  d.monthName ++ " " ++ d.yearText

/-! ## Reading -/

/-- A number of at most so many digits, after any white space. -/
private def scanDigits (width : Nat) (cs : List Char) : Option (Nat × List Char) :=
  let cs := Text.dropBlank cs
  let ds := (spanDigits (cs.take width)).1
  if ds.isEmpty then none else some (ofDigits ds, cs.drop ds.length)

/-- A year, after any white space: at most four digits, or any number of digits behind a sign. -/
private def scanYear (cs : List Char) : Option (Int × List Char) :=
  match Text.dropBlank cs with
  | '-' :: cs => (signed cs).map fun (n, rest) => (-n, rest)
  | '+' :: cs => signed cs
  | cs => (scanDigits 4 cs).map fun (n, rest) => (n, rest)
where
  /-- The digits behind a sign. -/
  signed (cs : List Char) : Option (Int × List Char) :=
    match spanDigits cs with
    | ([], _) => none
    | (ds, rest) => some (ofDigits ds, rest)

private def scanChar (c : Char) : List Char → Option (List Char)
  | [] => none
  | d :: rest => if c = d then some rest else none

private def scanDate (cs : List Char) : Option (Date × List Char) := do
  let (year, cs) ← scanYear cs
  let cs ← scanChar '-' cs
  let (month, cs) ← scanDigits 2 cs
  let cs ← scanChar '-' cs
  let (day, cs) ← scanDigits 2 cs
  return (← ofParts? year month day, cs)

/-- The hour and the minute of the time at the start of a text; a leap second is allowed. -/
private def scanTime (cs : List Char) : Option ((Nat × Nat) × List Char) := do
  let (hour, cs) ← scanDigits 2 cs
  let cs ← scanChar ':' cs
  let (minute, cs) ← scanDigits 2 cs
  let cs ← scanChar ':' cs
  let (second, cs) ← scanDigits 2 cs
  if hour < 24 && minute < 60 && second ≤ 60 then return ((hour, minute), cs) else none

def ofChars? (cs : List Char) : Option Date :=
  match scanDate cs with
  | some (d, []) => some d
  | _ => none

/-- The date with hour and minute that a whole text gives, the time behind a `T` or white space. -/
def ofCharsWithTime? (cs : List Char) : Option (Date × Nat × Nat) := do
  let (d, rest) ← scanDate cs
  let rest := match rest with
    | 'T' :: rest => rest
    | rest => rest
  match ← scanTime rest with
  | ((hour, minute), []) => return (d, hour, minute)
  | _ => none

end Date

/-- A date, a date with time or a month as it is shown to people; any other text trimmed. -/
def prettyDate (raw : String) : String :=
  let cs := Text.trimChars raw.toList
  let raw := String.ofList cs
  match Date.ofChars? cs with
  | some d => d.inWords
  | none =>
    match Date.ofCharsWithTime? cs with
    | some (d, hour, minute) =>
      d.inWords ++ " " ++ Numeric.padded 2 hour ++ ":" ++ Numeric.padded 2 minute
    | none =>
      match Date.ofChars? (cs ++ ['-', '0', '1']) with
      | some d => if raw.utf8ByteSize = 7 then d.monthInWords else raw
      | none => raw

end Alerting
