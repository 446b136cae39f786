/-!
# Dates

Days of the proleptic Gregorian calendar, with the year before year 1 numbered 0.  The years are
bounded, so the first day has no predecessor and the last day no successor.
-/

namespace Alerting

namespace Calendar

def minYear : Int := -262143

def maxYear : Int := 262142

def isLeap (year : Int) : Bool :=
  year % 4 = 0 && (year % 100 ≠ 0 || year % 400 = 0)

/-- The number of days of a month, and zero for a number that names no month. -/
def daysInMonth (year : Int) (month : Nat) : Nat :=
  match month with
  | 1 | 3 | 5 | 7 | 8 | 10 | 12 => 31
  | 4 | 6 | 9 | 11 => 30
  | 2 => if isLeap year then 29 else 28
  | _ => 0

def daysBeforeMonth (year : Int) (month : Nat) : Nat :=
  (List.range (month - 1)).foldl (fun days m => days + daysInMonth year (m + 1)) 0

/-- The number of days from the first of January of year 1 to that of this year. -/
def daysBeforeYear (year : Int) : Int :=
  let y := year - 1
  365 * y + y.fdiv 4 - y.fdiv 100 + y.fdiv 400

end Calendar

open Calendar in
@[ext] structure Date where
  year : Int
  month : Nat
  day : Nat
  year_mem : minYear ≤ year ∧ year ≤ maxYear
  day_mem : 1 ≤ day ∧ day ≤ daysInMonth year month
deriving DecidableEq

namespace Date

open Calendar

def ofParts? (year : Int) (month day : Nat) : Option Date :=
  if h : (minYear ≤ year ∧ year ≤ maxYear) ∧ 1 ≤ day ∧ day ≤ daysInMonth year month then
    some ⟨year, month, day, h.1, h.2⟩
  else none

instance : Inhabited Date := ⟨⟨1970, 1, 1, by decide, by decide⟩⟩

def next? (d : Date) : Option Date :=
  if d.day < daysInMonth d.year d.month then ofParts? d.year d.month (d.day + 1)
  else if d.month < 12 then ofParts? d.year (d.month + 1) 1
  else ofParts? (d.year + 1) 1 1

def prev? (d : Date) : Option Date :=
  if 1 < d.day then ofParts? d.year d.month (d.day - 1)
  else if 1 < d.month then ofParts? d.year (d.month - 1) (daysInMonth d.year (d.month - 1))
  else ofParts? (d.year - 1) 12 31

def firstOfMonth (d : Date) : Date :=
  ⟨d.year, d.month, 1, d.year_mem, Nat.le_refl 1, Nat.le_trans d.day_mem.1 d.day_mem.2⟩

def firstOfNextMonth? (d : Date) : Option Date :=
  if d.month < 12 then ofParts? d.year (d.month + 1) 1 else ofParts? (d.year + 1) 1 1

/-- The number of the day, counted from the first of January of year 1, which is day 0. -/
def dayNumber (d : Date) : Int :=
  daysBeforeYear d.year + daysBeforeMonth d.year d.month + d.day - 1

/-- The day of the week, from 0 for Monday to 6 for Sunday; day 0 was a Monday. -/
def weekday (d : Date) : Nat :=
  (d.dayNumber % 7).toNat

end Date

structure DateTime where
  date : Date
  hour : Nat
  minute : Nat
  second : Nat
deriving DecidableEq, Inhabited

namespace DateTime

def ofParts? (date : Date) (hour minute second : Nat) : Option DateTime :=
  if hour < 24 ∧ minute < 60 ∧ second < 60 then some ⟨date, hour, minute, second⟩ else none

end DateTime

end Alerting
