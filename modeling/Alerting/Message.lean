import Alerting.Message.Blocks
import Alerting.Message.Tokens
import Alerting.Text.Base64
import Alerting.Text.Basic
/-!
# Messages

What is sent when a rule fires: an HTML body with its pictures, and what the subject and a short
text message are written from.  A message is made in a dialogue with the query engine and with
whoever takes pictures of widgets; it cannot fail, because a part that cannot be had is replaced by
a note.
-/

namespace Alerting

open Query Rule

/-- A picture that a body refers to by its content id. -/
structure InlineImage where
  contentId : String
  contentType : String
  bytes : List UInt8
deriving DecidableEq, Repr, Inhabited

def InlineImage.toJson (i : InlineImage) : Json :=
  .object
    [("content_id", .string i.contentId), ("content_type", .string i.contentType),
     ("bytes", .string (Text.Base64.encodeText i.bytes))]

structure Shot where
  width : Nat
  height : Nat
  theme : String
deriving DecidableEq, Repr, Inhabited

def Shot.toJson (s : Shot) : Json :=
  .object [("width", .int s.width), ("height", .int s.height), ("theme", .string s.theme)]

inductive Material where
  | query (request : Request)
  | capture (widget : WidgetRef) (shot : Shot)
deriving BEq, Inhabited

abbrev Material.Reply : Material → Type
  | query _ => Answer
  | capture .. => Except Failure (List UInt8)

abbrev Making := Dialogue Material Material.Reply

def Making.ofAsking {α : Type} (d : Asking α) : Making α :=
  d.embed .query fun _ answer => answer

structure Message where
  html : String
  /-- The tokens of the body. -/
  tokens : Tokens
  /-- The tokens of subjects and short messages. -/
  textTokens : Tokens
  cards : List Breakdown.Card
  images : List InlineImage

namespace Message

def defaultTemplate : RenderMode → String
  | .kpi => Template.slot "KPI_IMG"
  | .table => heading ++ Template.slot "TABLE_HTML"
  | .chart => heading ++ Template.slot "CHART_IMG"
where
  /-- The line above a table or a chart. -/
  heading : String :=
    "<p>" ++ Template.slot "source" ++ ": " ++ Template.slot "kpi_fmt" ++ "</p>\n"

def defaultShortTemplate : String :=
  Template.slot "source" ++ ": " ++ Template.slot "kpi_fmt" ++ " (" ++ Template.slot "operator"
    ++ " " ++ Template.slot "threshold" ++ ")"

/-- What stands for a part that could not be had. -/
def missing (part : String) : String :=
  "[" ++ part ++ " failed to render]"

def chartContentId : String := "chart"

def chartHtml : String :=
  "<img src=\"cid:" ++ chartContentId ++ "\" alt=\"chart\" style=\"max-width:100%\">"

def tableAggregation (q : QuerySpec) : Aggregation :=
  { source := q.source, aggregate := q.aggregate, measure := q.measure, filter := q.filter
    groupBy := q.groupBy }

def makeTable (q : QuerySpec) : Making String := do
  match ← Dialogue.put (A := Material.Reply) (.query (.aggregate (tableAggregation q))) with
  | .ok result => return tableHtml result q.limit
  | .error _ => return missing "table"

def makeChart (widget : WidgetRef) (camera : Option Shot) : Making (String × Option InlineImage) :=
  match camera with
  | none => return (missing "chart", none)
  | some shot => do
    match ← Dialogue.put (A := Material.Reply) (.capture widget shot) with
    | .ok bytes => return (chartHtml, some ⟨chartContentId, "image/png", bytes⟩)
    | .error _ => return (missing "chart", none)

/-- The template of the body: that of the rule unless it is blank. -/
def bodyTemplate (config : Config) : String :=
  (config.template.filter (!Text.isBlankText ·)).getD (defaultTemplate config.render.mode)

/-- Makes the message about an evaluation.  Tables and charts are only asked for where the body
mentions them. -/
def make (config : Config) (evaluation : Evaluation) (camera : Option Shot) : Making Message := do
  let tokens := baseTokens config evaluation
  let template := bodyTemplate config
  let label := (config.render.label <|> tokens.get? "source").getD ""
  let figure := figureHtml label ((tokens.get? "kpi_fmt").getD "")
  let table ← match config.render.query with
    | some q => if Text.mentions "TABLE_".toList template.toList then makeTable q else pure ""
    | none => pure ""
  let (chart, image) ← match config.render.widget with
    | some widget =>
      if Text.mentions "CHART_IMG".toList template.toList then makeChart widget camera
      else pure ("", none)
    | none => pure ("", none)
  let htmlTokens :=
    (((tokens.insert "KPI_IMG" figure).insert "TABLE_HTML" table).insert "TABLE_IMG" table).insert
      "CHART_IMG" chart
  let cards := (evaluation.breakdown?.map (·.cards)).getD []
  return {
    html := htmlWithCards template config.cardTemplate htmlTokens cards
    tokens := htmlTokens
    textTokens := withoutMarkup tokens
    cards := cards
    images := image.toList }

def subject (m : Message) (template : String) : String :=
  Template.fill template m.textTokens

/-- The short message that a template gives; a blank one counts as none. -/
def short (m : Message) (template : String) : String :=
  let template := if Text.isBlankText template then defaultShortTemplate else template
  textWithCards template m.textTokens m.cards

end Message

end Alerting
