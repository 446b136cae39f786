import Alerting.Evaluation
import Alerting.Numeric.Notation
import Alerting.Template
import Alerting.Text.PlainText
/-!
# Message tokens

The texts about a rule and its evaluation that templates can refer to.  Every token is always there:
the text of one that has nothing to say is empty.
-/

namespace Alerting.Message

open Numeric Query Rule Text

def describeFilter (filter : Filter) : String :=
  "; ".intercalate (filter.entries.map fun (field, c) => field ++ ": " ++ c.display)

def describeValues (filter : Filter) : String :=
  ", ".intercalate (filter.entries.map fun (_, c) => c.display)

def filterHtml (filter : Filter) : String :=
  if filter.isEmpty then ""
  else
    "<ul>" ++ String.join (filter.entries.map fun (field, c) =>
      "<li>" ++ escapeHtml field ++ ": " ++ escapeHtml c.display ++ "</li>") ++ "</ul>"

/-- The bound of a threshold in words; the configured value as it is where it could not be read. -/
def describeBound (threshold : Threshold) (value : Option Json) : String :=
  match threshold.bound with
  | some (.single x) => plainFigure x
  | some (.pair low high) => plainFigure low ++ " - " ++ plainFigure high
  | none => (value.map Json.display).getD ""

def conditionTokens (c : ThresholdCondition) (pick : Pick.Resolution) (category : String) :
    List (String × String) :=
  [("operator", c.comparison.name),
   ("threshold", describeBound c.threshold c.value),
   ("threshold_low", (c.threshold.pair?.map (plainFigure ·.1)).getD ""),
   ("threshold_high", (c.threshold.pair?.map (plainFigure ·.2)).getD ""),
   ("agg", c.aggregate.name),
   ("measure", c.measure.getD ""),
   ("xField", c.xField.getD ""),
   ("xValue", (c.xValue.map Json.display).getD ""),
   ("xPick", c.pick.mode),
   ("legend", category),
   ("xValueResolved", pick.value.getD ""),
   ("xValuePretty", pick.pretty.getD ""),
   ("filters", describeFilter pick.filter),
   ("filters_json", pick.filter.toJson.text),
   ("filters_values", describeValues pick.filter),
   ("filters_values_html", filterHtml pick.filter),
   ("source", c.source)]

def blankConditionTokens : List (String × String) :=
  [("operator", ""), ("threshold", ""), ("threshold_low", ""), ("threshold_high", ""), ("agg", ""),
   ("measure", ""), ("xField", ""), ("xValue", ""), ("xPick", ""), ("legend", ""),
   ("xValueResolved", ""), ("xValuePretty", ""), ("filters", ""),
   ("filters_json", "\x7b\x7d"), ("filters_values", ""), ("filters_values_html", ""),
   ("source", "")]

def figureTokens (config : Config) (evaluation : Evaluation) : List (String × String) :=
  [("kpi", (evaluation.kpi.map plainFigure).getD ""),
   ("kpi_fmt", (evaluation.kpi.map groupedFigure).getD ""),
   ("datasourceId", config.datasource.getD "")]

/-- The tokens that are texts.  They speak about the condition that was evaluated, or else about the
first one that is configured. -/
def baseTokens (config : Config) (evaluation : Evaluation) : Tokens :=
  let category := (evaluation.breakdown?.map Breakdown.best).getD ""
  let condition : Option (ThresholdCondition × Pick.Resolution) :=
    (evaluation.threshold.map fun t => (t.condition, t.pick))
      <|> config.primaryThreshold?.map fun c => (c, .ofFilter c.filter)
  .ofList <| figureTokens config evaluation ++
    match condition with
    | some (c, pick) => conditionTokens c pick category
    | none => blankConditionTokens

def markupNames : List String :=
  ["KPI_IMG", "CHART_IMG", "TABLE_IMG", "TABLE_HTML"]

def withoutMarkup (tokens : Tokens) : Tokens :=
  markupNames.foldl (fun tokens name => tokens.insert name "") tokens

end Alerting.Message
