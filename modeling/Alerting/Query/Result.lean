import Alerting.Dialogue
import Alerting.Figure
import Alerting.Query.Request
/-!
# Query results

The table that an engine answers with, and the single numbers that are read off it.
-/

namespace Alerting.Query

/-- A table: the names of its columns, and rows that need not be as long as these. -/
structure Result where
  columns : List String := []
  rows : List (List Json) := []
deriving BEq, Inhabited

abbrev Answer := Except Failure Result

abbrev Asking := Dialogue Request fun _ => Answer

def askAggregate (a : Aggregation) : Asking Answer :=
  .put (.aggregate a)

def askPivot (p : Pivot) : Asking Answer :=
  .put (.pivot p)

namespace Result

open Json.Reader in
def reader : Json.Reader Result :=
  record "struct QueryResult"
    [.optional "columns" (list string) fun v r => { r with columns := v },
     .optional "rows" (list (list json)) fun v r => { r with rows := v }]
    {} true

def toJson (r : Result) : Json :=
  .object [("columns", .ofStrings r.columns), ("rows", .array (r.rows.map .array))]

def columnIndex? (r : Result) (name : String) : Option Nat :=
  r.columns.idxOf? name

def cell? (r : Result) (name : String) (row : List Json) : Option Json :=
  (r.columnIndex? name).bind fun i => row[i]?

section Numbers

variable {α : Type} [Figure α] [CellNumber α]

/-- The number that a flat aggregation answers: the `value` cell of the first row, or else its first
cell that is a number, or else zero. -/
def scalar (r : Result) : α :=
  match r.rows with
  | [] => 0
  | row :: _ =>
    match r.cell? "value" row with
    | some cell => Figure.ofCell cell
    | none => (row.findSome? CellNumber.ofCell?).getD 0

/-- The number that a cross table without columns answers: the last cell of its first row, or
zero. -/
def trailing (r : Result) : α :=
  ((r.rows.head?.bind (·.getLast?)).map Figure.ofCell).getD 0

end Numbers

end Result

/-- The answer that a value amounts to: a table, or the failure to be one. -/
def Answer.ofJson (j : Json) : Answer :=
  (Json.Reader.ofJson Result.reader j).mapError fun fault => .ofMessage fault.message

end Alerting.Query
