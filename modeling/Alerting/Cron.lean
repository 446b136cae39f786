import Alerting.Calendar
import Alerting.Numeric.Decimal
import Alerting.Text.Basic
/-!
# Cron expressions

An expression has six fields: second, minute, hour, day of the month, month and day of the week.  A
field is a list of values, of ranges and of steps through a range, and a star stands for all values.
A time fits the expression when every field has its value.
-/

namespace Alerting

namespace Cron

open Numeric

/-- The values that a field may have, and names for some of them. -/
structure Scale where
  first : Nat
  last : Nat
  names : List (String × Nat) := []

def sixties : Scale := ⟨0, 59, []⟩

def hourScale : Scale := ⟨0, 23, []⟩

def dayScale : Scale := ⟨1, 31, []⟩

def monthScale : Scale where
  first := 1
  last := 12
  names :=
    [("JAN", 1), ("FEB", 2), ("MAR", 3), ("APR", 4), ("MAY", 5), ("JUN", 6), ("JUL", 7), ("AUG", 8),
     ("SEP", 9), ("OCT", 10), ("NOV", 11), ("DEC", 12)]

/-- The days of a week from Sunday to Sunday. -/
def weekdayScale : Scale where
  first := 0
  last := 7
  names :=
    [("SUN", 0), ("MON", 1), ("TUE", 2), ("WED", 3), ("THU", 4), ("FRI", 5), ("SAT", 6)]

def splitAtChar (separator : Char) : List Char → List (List Char)
  | [] => [[]]
  | c :: cs =>
    if c = separator then [] :: splitAtChar separator cs
    else match splitAtChar separator cs with
      | [] => [[c]]
      | part :: parts => (c :: part) :: parts

def natural? (cs : List Char) : Option Nat :=
  match spanDigits cs with
  | (d :: ds, []) => some (ofDigits (d :: ds))
  | _ => none

namespace Scale

def value? (scale : Scale) (cs : List Char) : Option Nat := do
  let n ← scale.names.lookup (String.ofList cs) <|> natural? cs
  if scale.first ≤ n && n ≤ scale.last then some n else none

/-- The first and the last value of a range; a single value is a range by itself. -/
def range? (scale : Scale) (cs : List Char) : Option (Nat × Nat) :=
  match splitAtChar '-' cs with
  | [['*']] => some (scale.first, scale.last)
  | [only] => (scale.value? only).map fun n => (n, n)
  | [first, last] => do
    let first ← scale.value? first
    let last ← scale.value? last
    if first ≤ last then some (first, last) else none
  | _ => none

/-- The values of a part of a field.  Steps from a single value go on to the last value. -/
def part? (scale : Scale) (cs : List Char) : Option (List Nat) :=
  match splitAtChar '/' cs with
  | [range] => (scale.range? range).map fun (first, last) => List.range' first (last + 1 - first)
  | [range, step] => do
    let (first, last) ← scale.range? range
    let last := if (scale.value? range).isSome then scale.last else last
    let step ← natural? step
    if step = 0 then none
    else some ((List.range' first (last + 1 - first)).filter fun n => (n - first) % step = 0)
  | _ => none

def field? (scale : Scale) (cs : List Char) : Option (List Nat) := do
  let parts ← (splitAtChar ',' cs).mapM scale.part?
  let values := parts.flatten
  return (List.range' scale.first (scale.last + 1 - scale.first)).filter (values.contains ·)

end Scale

def nicknames : List (String × String) :=
  [("@YEARLY", "0 0 0 1 1 *"), ("@ANNUALLY", "0 0 0 1 1 *"), ("@MONTHLY", "0 0 0 1 * *"),
   ("@WEEKLY", "0 0 0 * * 0"), ("@DAILY", "0 0 0 * * *"), ("@HOURLY", "0 0 * * * *")]

end Cron

/-- A cron expression, each field as its values in ascending order. -/
structure Cron where
  seconds : List Nat
  minutes : List Nat
  hours : List Nat
  days : List Nat
  months : List Nat
  /-- From 0 for Sunday; 7 is Sunday too. -/
  weekdays : List Nat
deriving DecidableEq, Repr, Inhabited

namespace Cron

/-- A field in which a question mark stands for all values. -/
private def anyValue (cs : List Char) : List Char :=
  if cs = ['?'] then ['*'] else cs

def ofText? (s : String) : Option Cron := do
  let s := (s.map Char.toUpper)
  let s := (nicknames.lookup (Text.trim s)).getD s
  match Text.words s.toList with
  | [seconds, minutes, hours, days, months, weekdays] =>
    return {
      seconds := ← sixties.field? seconds
      minutes := ← sixties.field? minutes
      hours := ← hourScale.field? hours
      days := ← dayScale.field? (anyValue days)
      months := ← monthScale.field? months
      weekdays := ← weekdayScale.field? (anyValue weekdays) }
  | _ => none

def fitsDay (c : Cron) (d : Date) : Bool :=
  let weekday := (d.weekday + 1) % 7
  c.days.contains d.day && c.months.contains d.month
    && (c.weekdays.contains weekday || weekday = 0 && c.weekdays.contains 7)

def fits (c : Cron) (t : DateTime) : Bool :=
  c.fitsDay t.date && c.hours.contains t.hour && c.minutes.contains t.minute
    && c.seconds.contains t.second

def firstOn? (c : Cron) (d : Date) : Option DateTime := do
  return ⟨d, ← c.hours.head?, ← c.minutes.head?, ← c.seconds.head?⟩

def laterOn? (c : Cron) (t : DateTime) : Option DateTime :=
  if !c.fitsDay t.date then none
  else
    let inMinute : Option DateTime := do
      guard (c.hours.contains t.hour && c.minutes.contains t.minute)
      return { t with second := ← c.seconds.find? (t.second < ·) }
    let inHour : Option DateTime := do
      guard (c.hours.contains t.hour)
      return ⟨t.date, t.hour, ← c.minutes.find? (t.minute < ·), ← c.seconds.head?⟩
    let onDay : Option DateTime := do
      return ⟨t.date, ← c.hours.find? (t.hour < ·), ← c.minutes.head?, ← c.seconds.head?⟩
    inMinute <|> inHour <|> onDay

/-- The first day that fits among so many days from this one on. -/
def findDay? (c : Cron) : Nat → Date → Option Date
  | 0, _ => none
  | days + 1, d => if c.fitsDay d then some d else d.next?.bind (c.findDay? days)

/-- After so many days the calendar repeats itself. -/
def daysOfCycle : Nat := 146097

/-- The first time after this one that fits the expression. -/
def next? (c : Cron) (t : DateTime) : Option DateTime :=
  c.laterOn? t <|> (t.date.next?.bind (c.findDay? daysOfCycle)).bind c.firstOn?

end Cron

end Alerting
