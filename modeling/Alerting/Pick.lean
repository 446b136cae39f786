import Alerting.Query.Cell
import Alerting.Query.Request
/-!
# Picks

A pick says how the x dimension of a condition is narrowed before anything is computed: to the
condition's own value, to a range, to a window relative to today, or to an extreme value that the
engine is asked for.  A custom pick only names a value to be shown.
-/

namespace Alerting

inductive Pick.Window where
  | today
  | yesterday
  | thisMonth
deriving DecidableEq, Repr, Inhabited

inductive Pick.Extreme where
  | min
  | max
  | first
  | last
deriving DecidableEq, Repr, Inhabited

inductive Pick where
  | value
  | custom (value : Json)
  | range (lower upper : Option Json) (inclusiveUpper : Bool)
  | window (window : Pick.Window)
  | extreme (extreme : Pick.Extreme)
deriving BEq, Inhabited

namespace Pick

open Json.Reader

namespace Window

def names : List (String × Window) :=
  [("today", today), ("yesterday", yesterday), ("this_month", thisMonth)]

def name : Window → String
  | today => "today"
  | yesterday => "yesterday"
  | thisMonth => "this_month"

def reader : Json.Reader Window :=
  keyword names

end Window

namespace Extreme

def names : List (String × Extreme) :=
  [("min", min), ("max", max), ("first", first), ("last", last)]

def name : Extreme → String
  | min => "min"
  | max => "max"
  | first => "first"
  | last => "last"

/-- The aggregate that finds the extreme value; the first value is the least, the last the
greatest. -/
def aggregate : Extreme → Query.Aggregate
  | min => .min
  | first => .min
  | max => .max
  | last => .max

end Extreme

def mode : Pick → String
  | value => "value"
  | custom _ => "custom"
  | range .. => "range"
  | window _ => "token"
  | extreme _ => "special"

structure Parts where
  value : Json := .null
  lower : Option Json := none
  upper : Option Json := none
  inclusiveUpper : Bool := false
  window : Window := .today
  extreme : Extreme := .min

/-- Reads a pick; its kind is the tag `mode`. -/
def reader : Json.Reader Pick :=
  tagged "internally tagged enum XPick" "mode"
    [("value", bare "unit variant XPick::Value" value),
     ("custom", fun s d => (fun p => custom p.value) <$> record "struct variant XPick::Custom"
        [.mandatory "value" json fun v p => { p with value := v }] ({} : Parts) true s d),
     ("range", fun s d => (fun p => range p.lower p.upper p.inclusiveUpper) <$>
        record "struct variant XPick::Range"
        [.optional "from" (optional json) fun v p => { p with lower := v },
         .optional "to" (optional json) fun v p => { p with upper := v },
         .optional "inclusiveTo" bool fun v p => { p with inclusiveUpper := v }]
         ({} : Parts) true s d),
     ("token", fun s d => (fun p => window p.window) <$> record "struct variant XPick::Token"
        [.mandatory "token" Window.reader fun v p => { p with window := v }] ({} : Parts) true s d),
     ("special", fun s d => (fun p => extreme p.extreme) <$> record "struct variant XPick::Special"
        [.mandatory "pick" (keyword Extreme.names) fun v p => { p with extreme := v }]
        ({} : Parts) true s d)]

def toJson (pick : Pick) : Json :=
  .object <| ("mode", .string pick.mode) :: match pick with
    | value => []
    | custom v => [("value", v)]
    | range lower upper inclusive =>
      [("from", lower.getD .null), ("to", upper.getD .null), ("inclusiveTo", .bool inclusive)]
    | window w => [("token", .string w.name)]
    | extreme e => [("pick", .string e.name)]

end Pick

end Alerting
