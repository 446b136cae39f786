import Alerting.Kpi
/-!
# Breakdowns

One number per category in place of a single number.  The first legend field names the categories;
the others together label the parts of a category.  A breakdown lists the categories from the
largest to the smallest and selects the one to report.
-/

namespace Alerting

open Query

/-- One aggregated row: its labels in the order of the legend fields, and its value. -/
structure GroupRow (α : Type := Float) where
  labels : List String
  value : α
deriving DecidableEq, Repr, Inhabited

namespace Breakdown

def separator : String := " / "

def blankLabel : String := "(blank)"

structure Part (α : Type := Float) where
  label : String
  value : α
deriving DecidableEq, Repr, Inhabited

/-- A category with its value, and whether the value meets the threshold. -/
structure Card (α : Type := Float) where
  category : String
  value : α
  isMatch : Bool
  parts : List (Part α)
deriving DecidableEq, Repr, Inhabited

inductive Selection (α : Type := Float) where
  /-- The largest matching category, with the sum over all matching ones. -/
  | ofMatches (category : String) (kpi : α)
  /-- The largest category of all where none matches. -/
  | ofNoMatch (category : String) (value : α)
deriving DecidableEq, Repr, Inhabited

end Breakdown

/-- The categories of a condition from the largest to the smallest. -/
structure Breakdown (α : Type := Float) where
  fields : List String
  cards : List (Breakdown.Card α)
  selection : Breakdown.Selection α
deriving DecidableEq, Repr, Inhabited

namespace Breakdown

variable {α : Type}

namespace Selection

def category : Selection α → String
  | ofMatches category _ => category
  | ofNoMatch category _ => category

def kpi : Selection α → α
  | ofMatches _ kpi => kpi
  | ofNoMatch _ value => value

def isMatch : Selection α → Bool
  | ofMatches .. => true
  | ofNoMatch .. => false

end Selection

/-- Categories are used if there are legend fields and the filter constrains none of them. -/
def isActive (fields : List String) (filter : Filter) : Bool :=
  !fields.isEmpty && fields.all (!filter.contains ·)

/-! ## Rows -/

/-- The label in a cell, which is absent where the row is too short. -/
def labelOf (cell : Option Json) : String :=
  let label := (cell.map Json.display).getD ""
  if Text.isBlankText label then blankLabel else label

/-- The labels and values in a grouped result.  A field is found by the name of its column, or else
by its position; the value is in the column `value`, or else in the last cell.  Empty rows are left
out. -/
def readRows [Figure α] [CellNumber α] (result : Result) (fields : List String) :
    List (GroupRow α) :=
  (result.rows.filter (!·.isEmpty)).map fun row =>
    { labels := fields.zipIdx.map fun (field, position) =>
        labelOf row[(result.columnIndex? field).getD position]?
      value :=
        match result.cell? "value" row with
        | some cell => Figure.ofCell cell
        | none => (row.getLast?.map Figure.ofCell).getD 0 }

/-! ## Building -/

section Building

variable [Figure α]

/-- Whether one value with its name comes before another: the larger value first, names ascending.
-/
def precedes (value₁ : α) (name₁ : String) (value₂ : α) (name₂ : String) : Bool :=
  Figure.ranksBelow value₂ value₁ || !Figure.ranksBelow value₁ value₂ && name₁ ≤ name₂

/-- Adds a value to the part with this label; a new part goes to the end. -/
def addPart (label : String) (value : α) : List (Part α) → List (Part α)
  | [] => [⟨label, value⟩]
  | part :: rest =>
    if part.label = label then { part with value := part.value + value } :: rest
    else part :: addPart label value rest

structure Group (α : Type := Float) where
  category : String
  value : α
  parts : List (Part α)
deriving DecidableEq, Repr, Inhabited

def categoryOf (row : GroupRow α) : String :=
  row.labels.headD blankLabel

def partLabel (row : GroupRow α) : String :=
  separator.intercalate row.labels.tail

def Group.add (withParts : Bool) (row : GroupRow α) (g : Group α) : Group α :=
  { g with
    value := g.value + row.value
    parts := if withParts then addPart (partLabel row) row.value g.parts else g.parts }

def addRow (withParts : Bool) (row : GroupRow α) : List (Group α) → List (Group α)
  | [] => [Group.add withParts row ⟨categoryOf row, 0, []⟩]
  | g :: rest =>
    if g.category = categoryOf row then g.add withParts row :: rest
    else g :: addRow withParts row rest

/-- The groups of the rows, in the order in which their categories first occur. -/
def groups (fields : List String) (rows : List (GroupRow α)) : List (Group α) :=
  rows.foldl (fun gs row => addRow (2 ≤ fields.length) row gs) []

def Group.card (threshold : Threshold α) (g : Group α) : Card α :=
  { category := g.category
    value := g.value
    isMatch := threshold.isMetBy g.value
    parts := g.parts.mergeSort fun a b => precedes a.value a.label b.value b.label }

def cardsOf (fields : List String) (rows : List (GroupRow α)) (threshold : Threshold α) :
    List (Card α) :=
  ((groups fields rows).map (Group.card threshold)).mergeSort fun a b =>
    precedes a.value a.category b.value b.category

def select? (cards : List (Card α)) : Option (Selection α) :=
  let matching := cards.filter (·.isMatch)
  match matching with
  | best :: _ => some (.ofMatches best.category (Figure.total (matching.map (·.value))))
  | [] => cards.head?.map fun top => .ofNoMatch top.category top.value

/-- The breakdown of aggregated rows; there is none without rows. -/
def ofRows? (fields : List String) (rows : List (GroupRow α)) (threshold : Threshold α) :
    Option (Breakdown α) :=
  let cards := cardsOf fields rows threshold
  (select? cards).map (Breakdown.mk fields cards)

end Building

def fires (b : Breakdown α) : Bool :=
  b.selection.isMatch

def kpi (b : Breakdown α) : α :=
  b.selection.kpi

def best (b : Breakdown α) : String :=
  b.selection.category

/-! ## Asking -/

variable [Figure α] [CellNumber α]

def askRows (k : Kpi) (fields : List String) (strategy : Strategy) :
    Asking (Except ResolveError (List (GroupRow α))) := do
  let answer ← match strategy with
    | .query => askAggregate { k.aggregation with legend := fields.head?, groupBy := fields }
    | .pivot => askPivot (k.crossTable fields)
  match answer with
  | .error failure => return .error (.query k.source failure)
  | .ok result =>
    let rows := readRows result fields
    return if rows.isEmpty then .error (.emptyResult k.source) else .ok rows

def ofAnswer (source : String) (fields : List String) (rows : List (GroupRow α))
    (threshold : Threshold α) : Except ResolveError (Breakdown α) :=
  match ofRows? fields rows threshold with
  | some b => .ok b
  | none => .error (.emptyResult source)

/-- The breakdown of a number by legend fields, by the configured strategy or else by the other. -/
def resolve? (k : Kpi) (fields : List String) (threshold : Threshold α) :
    Asking (Except ResolveError (Breakdown α)) := do
  let rows ← match ← askRows (α := α) k fields k.strategy with
    | .ok rows => pure (.ok rows)
    | .error _ => askRows k fields k.strategy.other
  return rows.bind (ofAnswer k.source fields · threshold)

end Breakdown

end Alerting
