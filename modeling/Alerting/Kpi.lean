import Alerting.Pick.Resolution
import Alerting.Threshold
/-!
# Key figures

The one number that a condition is about.  It is asked for as a flat aggregation or as a cross
table, whichever is configured first; when that fails the other way is tried, and in the end the
number is zero.
-/

namespace Alerting

open Query

inductive Strategy where
  | query
  | pivot
deriving DecidableEq, Repr, Inhabited

namespace Strategy

def names : List (String × Strategy) :=
  [("query", query), ("pivot", pivot)]

def name : Strategy → String
  | query => "query"
  | pivot => "pivot"

def other : Strategy → Strategy
  | query => pivot
  | pivot => query

end Strategy

structure Kpi where
  source : String
  aggregate : Aggregate
  measure : Option String
  filter : Filter
  xField : Option String
  strategy : Strategy
deriving BEq, Inhabited

namespace Kpi

variable {α : Type} [Figure α]

/-- One number from the totals of several groups.  Averages and distinct counts cannot be combined;
without groups the number is zero. -/
def combine (aggregate : Aggregate) (totals : List α) : Except ResolveError α :=
  if totals.isEmpty then .ok 0
  else match aggregate with
    | .sum | .count => .ok (Figure.total totals)
    | .min => .ok (totals.foldl Figure.lesser Figure.infinity)
    | .max => .ok (totals.foldl Figure.greater Figure.negInfinity)
    | .avg | .distinct => .error (.notCombinable aggregate)

def aggregation (k : Kpi) : Aggregation :=
  { source := k.source
    aggregate := k.aggregate
    measure := k.aggregate.measure k.measure
    filter := k.filter }

def crossTable (k : Kpi) (rows : List String) : Pivot :=
  { source := k.source
    rows := rows
    valueField := k.aggregate.measure k.measure
    aggregate := k.aggregate
    filter := k.filter }

private def readAnswer {β : Type} (k : Kpi) (read : Result → Except ResolveError β)
    (answer : Answer) : Except ResolveError β :=
  match answer with
  | .ok result => read result
  | .error failure => .error (.query k.source failure)

variable [CellNumber α]

def byQuery (k : Kpi) : Asking (Except ResolveError α) := do
  return k.readAnswer (.ok ·.scalar) (← askAggregate k.aggregation)

def byPlainPivot (k : Kpi) : Asking (Except ResolveError α) := do
  return k.readAnswer (.ok ·.trailing) (← askPivot (k.crossTable []))

def byWindowedPivot (k : Kpi) (field : String) : Asking (Except ResolveError α) := do
  let totals (result : Result) : List α :=
    result.rows.filterMap fun row => row.getLast?.map Figure.ofCell
  return k.readAnswer (fun result => combine k.aggregate (totals result))
    (← askPivot (k.crossTable [field]))

/-- The number by cross tables: over the x field if there is one, and without dimensions otherwise
or when that fails. -/
def byPivot (k : Kpi) : Asking (Except ResolveError α) :=
  match k.xField.filter (· ≠ "") with
  | none => k.byPlainPivot
  | some field => do
    match ← k.byWindowedPivot field with
    | .ok x => return .ok x
    | .error _ => k.byPlainPivot

def ask (k : Kpi) : Strategy → Asking (Except ResolveError α)
  | .query => k.byQuery
  | .pivot => k.byPivot

/-- The number; zero when neither strategy gives one, or when it is not finite. -/
def resolve (k : Kpi) : Asking α := do
  let x ← match ← k.ask k.strategy with
    | .ok x => pure x
    | .error _ => return finite ((← k.ask k.strategy.other).toOption.getD 0)
  return finite x
where
  /-- A number that is not finite counts as zero. -/
  finite (x : α) : α := if Figure.isFinite x then x else 0

end Kpi

end Alerting
