import Alerting.Calendar.Text
/-!
# Instants

Points of time, independent of any zone: whole seconds since the start of 1970 in universal time,
and billionths of a second.
-/

namespace Alerting

structure Instant where
  seconds : Int
  nanos : Nat
deriving DecidableEq, Repr, Inhabited

namespace Calendar

def epochDay : Int := 719162

def daySeconds : Int := 86400

end Calendar

open Calendar

def Date.ofDayNumber? (n : Int) : Option Date :=
  let estimate := (400 * n).fdiv 146097 + 1
  let year := if daysBeforeYear (estimate + 1) ≤ n then estimate + 1
    else if n < daysBeforeYear estimate then estimate - 1 else estimate
  let rest := (n - daysBeforeYear year).toNat
  let month := ((List.range 12).filter fun m => daysBeforeMonth year (m + 1) ≤ rest).length
  Date.ofParts? year month (rest - daysBeforeMonth year month + 1)

namespace Instant

def isBefore (a b : Instant) : Bool :=
  a.seconds < b.seconds || a.seconds = b.seconds && a.nanos < b.nanos

/-- The instant at which a clock that shows universal time shows this. -/
def ofDateTime (t : DateTime) : Instant :=
  { seconds := (t.date.dayNumber - epochDay) * daySeconds + 3600 * t.hour + 60 * t.minute + t.second
    nanos := 0 }

/-- What a clock that shows universal time shows. -/
def toDateTime? (i : Instant) : Option DateTime := do
  let date ← Date.ofDayNumber? (i.seconds.fdiv daySeconds + epochDay)
  let rest := (i.seconds.fmod daySeconds).toNat
  return ⟨date, rest / 3600, rest / 60 % 60, rest % 60⟩

def year (i : Instant) : Int :=
  (i.toDateTime?.map (·.date.year)).getD 1970

def addSeconds (i : Instant) (n : Int) : Instant :=
  { i with seconds := i.seconds + n }

/-- The billionths of a second as a fraction of three, six or nine digits. -/
private def fractionText (nanos : Nat) : String :=
  if nanos = 0 then ""
  else if nanos % 1000000 = 0 then "." ++ Numeric.padded 3 (nanos / 1000000)
  else if nanos % 1000 = 0 then "." ++ Numeric.padded 6 (nanos / 1000)
  else "." ++ Numeric.padded 9 nanos

/-- The instant in universal time, such as `2024-03-05T09:30:00+00:00`. -/
def text (i : Instant) : String :=
  match i.toDateTime? with
  | none => ""
  | some t =>
    t.date.text ++ "T" ++ Numeric.padded 2 t.hour ++ ":" ++ Numeric.padded 2 t.minute ++ ":"
      ++ Numeric.padded 2 t.second ++ fractionText i.nanos ++ "+00:00"

/-! ## Reading -/

/-- A number of exactly so many digits, and what follows it. -/
private def scanFixed (width : Nat) (cs : List Char) : Option (Nat × List Char) := do
  let ds ← (cs.take width).mapM Numeric.digit?
  if ds.length = width then some (Numeric.ofDigits ds, cs.drop width) else none

private def scanMark (mark : Char) : List Char → Option (List Char)
  | [] => none
  | c :: cs => if c = mark then some cs else none

private def scanNanos : List Char → Option (Nat × List Char)
  | '.' :: cs =>
    match Numeric.spanDigits cs with
    | ([], _) => none
    | (ds, rest) => some (Numeric.ofDigits ((ds ++ List.replicate 9 0).take 9), rest)
  | cs => some (0, cs)

/-- The seconds by which a zone is ahead of universal time, as the whole rest of a text. -/
private def scanOffset : List Char → Option Int
  | ['Z'] | ['z'] => some 0
  | sign :: cs => do
    let (hours, cs) ← scanFixed 2 cs
    let (minutes, cs) ← scanFixed 2 (← scanMark ':' cs)
    guard (cs.isEmpty && hours < 24 && minutes < 60)
    let seconds : Int := 3600 * hours + 60 * minutes
    match sign with
    | '+' => return seconds
    | '-' => return -seconds
    | _ => none
  | [] => none

/-- The instant of a text such as `2024-03-05T10:30:00+01:00`. -/
def ofText? (s : String) : Option Instant := do
  let (year, cs) ← scanFixed 4 s.toList
  let (month, cs) ← scanFixed 2 (← scanMark '-' cs)
  let (day, cs) ← scanFixed 2 (← scanMark '-' cs)
  let (hour, cs) ← scanFixed 2 (← scanMark 'T' cs)
  let (minute, cs) ← scanFixed 2 (← scanMark ':' cs)
  let (second, cs) ← scanFixed 2 (← scanMark ':' cs)
  let (nanos, cs) ← scanNanos cs
  let offset ← scanOffset cs
  let date ← Date.ofParts? year month day
  let t ← DateTime.ofParts? date hour minute second
  return { (ofDateTime t).addSeconds (-offset) with nanos := nanos }

end Instant

end Alerting
