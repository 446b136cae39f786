import Alerting.Calendar.Text
import Alerting.Pick
import Alerting.Query.Result
/-!
# Resolving a pick

`Pick.resolve?` turns a pick into a filter and, where the pick is about a single value, that value.
`Pick.resolve` does not fail: what cannot be resolved leaves the filter as it was.
-/

namespace Alerting

open Query

inductive ResolveError where
  | query (source : String) (failure : Failure)
  /-- The engine answered nothing usable. -/
  | emptyResult (source : String)
  /-- Totals of this aggregate say nothing about the whole. -/
  | notCombinable (aggregate : Aggregate)
  /-- A pick of this kind needs an x field. -/
  | missingDimension (mode : String)
deriving DecidableEq, Repr

namespace ResolveError

def message : ResolveError → String
  | query source failure =>
    "Resolve: query engine failed for source '" ++ source ++ "': " ++ failure.full
  | emptyResult source => "Resolve: query on '" ++ source ++ "' returned no usable rows"
  | notCombinable aggregate =>
    "Resolve: aggregator '" ++ aggregate.name ++ "' cannot be combined across window rows"
  | missingDimension mode => "Resolve: x-pick mode '" ++ mode ++ "' requires an x field"

end ResolveError

namespace Pick

/-- What a pick amounts to: the filter to use, and the value that was picked with its shown form. -/
structure Resolution where
  filter : Filter
  value : Option String
  pretty : Option String
deriving BEq, Inhabited

namespace Resolution

def ofFilter (filter : Filter) : Resolution :=
  ⟨filter, none, none⟩

def ofValue (filter : Filter) (value : String) : Resolution :=
  ⟨filter, some value, some (prettyDate value)⟩

end Resolution

structure Context where
  source : String
  filter : Filter
  xField : Option String
  xValue : Option Json
  pick : Pick

/-- The bounds of a window, and the day or month that stands for it.  Today is open below: it means
everything up to the end of the day. -/
def Window.bounds (w : Window) (today : Date) : Except ResolveError (Bounds × String) :=
  let within (d : Option Date) : Except ResolveError Date :=
    match d with
    | some d => .ok d
    | none => .error (.emptyResult ("date window for " ++ today.text))
  let text (d : Date) : Option Json := some (.string d.text)
  match w with
  | .today => do
    let tomorrow ← within today.next?
    return ({ lt := text tomorrow }, today.text)
  | .yesterday => do
    let yesterday ← within today.prev?
    return ({ gte := text yesterday, lt := text today }, yesterday.text)
  | .thisMonth => do
    let next ← within today.firstOfNextMonth?
    return ({ gte := text today.firstOfMonth, lt := text next }, today.firstOfMonth.monthText)

/-- The first cell of a result that is not null, the `value` column of the first row first. -/
private def extremeCell? (result : Result) : Option Json := do
  let row ← result.rows.head?
  match (result.cell? "value" row).filter (!·.isNull) with
  | some cell => some cell
  | none => row.find? (!·.isNull)

private def Context.field? (c : Context) : Option String :=
  c.xField.filter (· ≠ "")

def Context.resolve? (c : Context) (today : Date) : Asking (Except ResolveError Resolution) :=
  match c.pick with
  | .value =>
    match c.field?, c.xValue.filter (!·.isNull) with
    | some field, some v => return .ok (.ofValue (c.filter.insert field (.scalar v)) v.display)
    | _, _ => return .ok (.ofFilter c.filter)
  | .custom v => return .ok (.ofValue c.filter v.display)
  | .range lower upper inclusive =>
    match c.field? with
    | none => return .error (.missingDimension "range")
    | some field =>
      let upper := upper.filter (!·.isNull)
      let bounds : Bounds :=
        { gte := lower.filter (!·.isNull)
          lt := if inclusive then none else upper
          lte := if inclusive then upper else none }
      return .ok <| .ofFilter <|
        if bounds.isUnbounded then c.filter else c.filter.insert field (.range bounds)
  | .window w =>
    match c.field? with
    | none => return .error (.missingDimension "token")
    | some field =>
      return (w.bounds today).map fun (bounds, shown) =>
        .ofValue (c.filter.insert field (.range bounds)) shown
  | .extreme e =>
    match c.field? with
    | none => return .error (.missingDimension "special")
    | some field => do
      let request : Aggregation :=
        { source := c.source, aggregate := e.aggregate, measure := some field, filter := c.filter }
      match ← askAggregate request with
      | .error failure => return .error (.query c.source failure)
      | .ok result =>
        match extremeCell? result with
        | none => return .error (.emptyResult c.source)
        | some cell => return .ok (.ofValue (c.filter.insert field (.scalar cell)) cell.display)

/-- Resolves a pick; where that is not possible the filter stays as it is. -/
def Context.resolve (c : Context) (today : Date) : Asking Resolution := do
  return (← c.resolve? today).toOption.getD (.ofFilter c.filter)

end Pick

end Alerting
