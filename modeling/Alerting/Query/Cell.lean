import Alerting.Json.Printer
import Alerting.Numeric.Decimal
/-!
# Cells

How the cells of a query result are read as numbers and shown as text.
-/

namespace Alerting.Json

/-- The number in a cell: a number, or a text that holds one. -/
def toFloat? : Json → Option Float
  | .number n => if n.toFloat.isFinite then some n.toFloat else none
  | .string s => (Numeric.ofText? s).filter (·.isFinite)
  | _ => none

theorem isFinite_of_toFloat? {cell : Json} {x : Float} (h : cell.toFloat? = some x) :
    x.isFinite = true := by
  unfold toFloat? at h
  split at h
  · split at h
    · next hfinite =>
      cases h
      exact hfinite
    · cases h
  · exact (Option.filter_eq_some_iff.mp h).2
  · cases h

def toFloat (cell : Json) : Float :=
  cell.toFloat?.getD 0

theorem isFinite_toFloat (cell : Json) : cell.toFloat.isFinite = true := by
  unfold toFloat
  cases h : cell.toFloat? with
  | none => rfl
  | some x => exact isFinite_of_toFloat? h

/-- The text of a cell: a string as it is, nothing for null, and JSON text for anything else. -/
def display : Json → String
  | .string s => s
  | .null => ""
  | cell => cell.text

def isNull : Json → Bool
  | .null => true
  | _ => false

end Alerting.Json
