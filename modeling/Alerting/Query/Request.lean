import Alerting.Json.Reader
import Alerting.Query.Filter
/-!
# Requests to the query engine

An engine answers two kinds of requests: flat aggregations, optionally grouped, and cross tables.
Both apply an aggregate to a measure, or to rows in the case of `count`.
-/

namespace Alerting.Query

/-! ## Aggregates -/

inductive Aggregate where
  | count
  | sum
  | avg
  | min
  | max
  | distinct
deriving DecidableEq, Repr, Inhabited

namespace Aggregate

def name : Aggregate → String
  | count => "count"
  | sum => "sum"
  | avg => "avg"
  | min => "min"
  | max => "max"
  | distinct => "distinct"

def names : List (String × Aggregate) :=
  [("count", count), ("sum", sum), ("avg", avg), ("min", min), ("max", max),
   ("count_distinct", distinct), ("distinct", distinct), ("distinct_count", distinct)]

def reader : Json.Reader Aggregate :=
  .keyword names

/-- The measure that goes with an aggregate in a request; counting rows needs none. -/
def measure (aggregate : Aggregate) (configured : Option String) : Option String :=
  match aggregate with
  | count => none
  | _ => configured

end Aggregate

/-! ## Requests -/

structure Aggregation where
  source : String
  aggregate : Aggregate
  measure : Option String := none
  filter : Filter := ∅
  legend : Option String := none
  x : Option String := none
  groupBy : List String := []
deriving BEq, Inhabited

structure Pivot where
  source : String
  rows : List String
  cols : List String := []
  valueField : Option String := none
  aggregate : Aggregate
  filter : Filter := ∅
deriving BEq, Inhabited

inductive Request where
  | aggregate (a : Aggregation)
  | pivot (p : Pivot)
deriving BEq, Inhabited

def fieldIf (present : Bool) (name : String) (value : Json) : List (String × Json) :=
  if present then [(name, value)] else []

def Aggregation.toJson (a : Aggregation) : Json :=
  .object <|
    [("source", .string a.source), ("agg", .string a.aggregate.name)]
      ++ fieldIf a.measure.isSome "measure" (.ofString? a.measure)
      ++ fieldIf (!a.filter.isEmpty) "where" a.filter.toJson
      ++ fieldIf a.legend.isSome "legend" (.ofString? a.legend)
      ++ fieldIf a.x.isSome "x" (.ofString? a.x)
      ++ fieldIf (!a.groupBy.isEmpty) "groupBy" (.ofStrings a.groupBy)

def Pivot.toJson (p : Pivot) : Json :=
  .object <|
    [("source", .string p.source), ("rows", .ofStrings p.rows), ("cols", .ofStrings p.cols)]
      ++ fieldIf p.valueField.isSome "valueField" (.ofString? p.valueField)
      ++ [("aggregator", .string p.aggregate.name)]
      ++ fieldIf (!p.filter.isEmpty) "where" p.filter.toJson

end Alerting.Query
