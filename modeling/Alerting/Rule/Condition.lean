import Alerting.Breakdown
/-!
# Conditions

What makes a rule fire: a time of day on certain days, or a number that meets a threshold.
-/

namespace Alerting.Rule

open Json.Reader Query

inductive Schedule where
  | daily
  /-- Days of the week, 0 for Monday to 6 for Sunday. -/
  | weekly (days : List Nat)
  | monthly (days : List Nat)
deriving DecidableEq, Repr, Inhabited

structure TimeCondition where
  enabled : Bool := true
  hour : Nat := 0
  minute : Nat := 0
  schedule : Schedule := .daily
  cron : Option String := none
deriving DecidableEq, Repr, Inhabited

structure ThresholdCondition where
  source : String := ""
  aggregate : Aggregate := .count
  measure : Option String := none
  filter : Filter := ∅
  xField : Option String := none
  xValue : Option Json := none
  pick : Pick := .value
  legend : List String := []
  comparison : Comparison := .equal
  value : Option Json := none
  strategy : Strategy := .query
  cron : Option String := none
deriving BEq, Inhabited

/-! ## Reading -/

/-- Reads a text, or an array of texts; blank texts are left out, and null stands for none. -/
def oneOrMany : Json.Reader (List String) := fun source d => do
  let texts ← optional (firstOf "OneOrMany"
    [fun s d => (fun text => [text]) <$> string s d, list string]) source d
  return (texts.getD []).filter (!Text.isBlankText ·)

def small : Json.Reader Nat :=
  natural "u32" (Nat.pow 2 32)

def Schedule.reader : Json.Reader Schedule :=
  let days (title : String) : Json.Reader (List Nat) :=
    record title [.optional "days" (list small) fun v _ => v] [] true
  tagged "internally tagged enum Schedule" "kind"
    [("daily", bare "unit variant Schedule::Daily" .daily),
     ("weekly", fun s d => .weekly <$> days "struct variant Schedule::Weekly" s d),
     ("monthly", fun s d => .monthly <$> days "struct variant Schedule::Monthly" s d)]

def TimeCondition.reader : Json.Reader TimeCondition :=
  record "struct TimeCondition"
    [.optional "enabled" bool fun v c => { c with enabled := v },
     .mandatory "hour" small fun v c => { c with hour := v },
     .mandatory "minute" small fun v c => { c with minute := v },
     .optional "schedule" Schedule.reader fun v c => { c with schedule := v },
     .optional "cron" (optional string) fun v c => { c with cron := v }]
    {} true

def ThresholdCondition.reader : Json.Reader ThresholdCondition :=
  record "struct ThresholdCondition"
    [.mandatory "source" string fun v c => { c with source := v },
     .optional "aggregator" Aggregate.reader fun v c => { c with aggregate := v },
     .optional "measure" (optional string) fun v c => { c with measure := v },
     .optional "filters" Filter.reader fun v c => { c with filter := v },
     .optional "xField" (optional string) fun v c => { c with xField := v },
     .optional "xValue" (optional json) fun v c => { c with xValue := v },
     .optional "xPick" Pick.reader fun v c => { c with pick := v },
     .optional "legend" oneOrMany fun v c => { c with legend := v },
     .mandatory "operator" Comparison.reader fun v c => { c with comparison := v },
     .optional "value" (optional json) fun v c => { c with value := v },
     .optional "calcMode" (keyword Strategy.names) fun v c => { c with strategy := v },
     .optional "cron" (optional string) fun v c => { c with cron := v }]
    {} true

/-! ## Writing -/

def daysJson (days : List Nat) : Json :=
  .array (days.map fun (day : Nat) => .int day)

def Schedule.toJson : Schedule → Json
  | daily => .object [("kind", .string "daily")]
  | weekly days => .object [("kind", .string "weekly"), ("days", daysJson days)]
  | monthly days => .object [("kind", .string "monthly"), ("days", daysJson days)]

def TimeCondition.fields (c : TimeCondition) : List (String × Json) :=
  [("enabled", .bool c.enabled), ("hour", .int c.hour), ("minute", .int c.minute),
   ("schedule", c.schedule.toJson), ("cron", .ofString? c.cron)]

def ThresholdCondition.fields (c : ThresholdCondition) : List (String × Json) :=
  [("source", .string c.source), ("aggregator", .string c.aggregate.name),
   ("measure", .ofString? c.measure), ("filters", c.filter.toJson), ("xField", .ofString? c.xField),
   ("xValue", c.xValue.getD .null), ("xPick", c.pick.toJson), ("legend", .ofStrings c.legend),
   ("operator", .string c.comparison.name), ("value", c.value.getD .null),
   ("calcMode", .string c.strategy.name), ("cron", .ofString? c.cron)]

/-! ## Meaning -/

/-- Whether the condition is met at a time.  It is met whenever it is disabled, and when it is
forced. -/
def TimeCondition.isMetAt (c : TimeCondition) (now : DateTime) (force : Bool) : Bool :=
  force || !c.enabled ||
    (now.hour == c.hour && now.minute == c.minute &&
      match c.schedule with
      | .daily => true
      | .weekly days => days.contains now.date.weekday
      | .monthly days => days.contains now.date.day)

def ThresholdCondition.threshold (c : ThresholdCondition) : Threshold :=
  .ofJson c.comparison c.value

end Alerting.Rule
