import Alerting.Breakdown
import Alerting.Numeric.Notation
import Alerting.Query.Cell
import Alerting.Query.Result
import Alerting.Template
import Alerting.Text.PlainText
/-!
# Tables, figures and cards

What a message is laid out of: a query result as an HTML table of bounded length, a single figure
with a label, and the categories of a breakdown, in HTML as one card for each, in plain text as one
line for each.  Cards and lines come behind a base text.
-/

namespace Alerting.Message

open Breakdown Numeric Text

/-! ## Tables and figures -/

def maxTableRows : Nat := 50

def cellHtml (cell : Json) : String :=
  "<td>" ++ escapeHtml cell.display ++ "</td>"

def rowHtml (row : List Json) : String :=
  "\n<tr>" ++ String.join (row.map cellHtml) ++ "</tr>"

/-- A result as a table of at most so many rows. -/
def tableHtml (result : Query.Result) (limit : Option Nat) : String :=
  let rows := result.rows.take (min (limit.getD maxTableRows) maxTableRows)
  "<table class=\"vigil-table\">\n<thead><tr>"
    ++ String.join (result.columns.map fun column => "<th>" ++ escapeHtml column ++ "</th>")
    ++ "</tr></thead>\n<tbody>" ++ String.join (rows.map rowHtml) ++ "\n</tbody>\n</table>"

def figureHtml (label figure : String) : String :=
  "<div class=\"vigil-kpi\"><div class=\"label\">" ++ escapeHtml label
    ++ "</div><div class=\"value\">" ++ escapeHtml figure ++ "</div></div>"

/-! ## Cards -/

/-- The tokens for one category: those of the message, with the category and its value in place of
the key figure. -/
def cardTokens (tokens : Tokens) (category : String) (value : Float) : Tokens :=
  ((tokens.insert "legend" category).insert "kpi" (plainFigure value)).insert "kpi_fmt"
    (groupedFigure value)

def defaultCardTemplate : String :=
  "<strong>" ++ Template.slot "legend" ++ "</strong>: " ++ Template.slot "kpi_fmt"

def partHtml (part : Part) : String :=
  "\n      <li>" ++ escapeHtml part.label ++ ": " ++ groupedFigure part.value ++ "</li>"

def partsHtml (parts : List Part) : String :=
  if parts.isEmpty then ""
  else
    "\n    <ol class=\"vigil-card-children\">" ++ String.join (parts.map partHtml) ++ "\n    </ol>"

def cardHtml (template : String) (tokens : Tokens) (card : Card) : String :=
  let kind := if card.isMatch then "vigil-card vigil-card-matched" else "vigil-card"
  "\n  <div class=\"" ++ kind ++ "\">"
    ++ Template.fill template (cardTokens tokens card.category card.value)
    ++ partsHtml card.parts ++ "\n  </div>"

def cardsHtml (template : String) (tokens : Tokens) (cards : List Card) : String :=
  if cards.isEmpty then ""
  else
    "\n<div class=\"vigil-cards\">" ++ String.join (cards.map (cardHtml template tokens))
      ++ "\n</div>"

/-- The base template filled, and the cards behind it; a blank card template counts as none. -/
def htmlWithCards (base : String) (cardTemplate : Option String) (tokens : Tokens)
    (cards : List Card) : String :=
  let template := (cardTemplate.filter (!isBlankText ·)).getD defaultCardTemplate
  Template.fill base tokens ++ cardsHtml template tokens cards

def cardLines (card : Card) : String :=
  "\n" ++ card.category ++ ": " ++ groupedFigure card.value
    ++ String.join (card.parts.map fun part =>
      "\n  - " ++ part.label ++ ": " ++ groupedFigure part.value)

def textWithCards (base : String) (tokens : Tokens) (cards : List Card) : String :=
  Template.fill base tokens ++ String.join (cards.map cardLines)

end Alerting.Message
