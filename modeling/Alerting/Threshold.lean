import Alerting.Figure
import Alerting.Json.Reader
import Alerting.Text.Basic
/-!
# Thresholds

A threshold compares a number with a configured bound.  `between` takes a pair of numbers in either
order, every other operator one number.  A bound that cannot be read leaves a threshold that nothing
meets.
-/

namespace Alerting

inductive Comparison where
  | lessThan
  | lessEqual
  | greaterThan
  | greaterEqual
  | equal
  | between
deriving DecidableEq, Repr, Inhabited

namespace Comparison

def name : Comparison → String
  | lessThan => "<"
  | lessEqual => "<="
  | greaterThan => ">"
  | greaterEqual => ">="
  | equal => "="
  | between => "between"

def names : List (String × Comparison) :=
  [("<", lessThan), ("lt", lessThan), ("less_than", lessThan),
   ("<=", lessEqual), ("lte", lessEqual), ("less_equal", lessEqual),
   (">", greaterThan), ("gt", greaterThan), ("greater_than", greaterThan),
   (">=", greaterEqual), ("gte", greaterEqual), ("greater_equal", greaterEqual),
   ("=", equal), ("==", equal), ("eq", equal), ("equal", equal),
   ("between", between)]

def ofText? (s : String) : Option Comparison :=
  names.lookup (Text.lower (Text.trim s))

def unknownMessage (s : String) : String :=
  "unknown compare operator: " ++ s

def reader : Json.Reader Comparison :=
  .refine .string fun s => (ofText? s).elim (.error (unknownMessage s)) .ok

end Comparison

inductive Bound (α : Type := Float) where
  | single (value : α)
  /-- Two numbers, the lower one first. -/
  | pair (low high : α)
deriving DecidableEq, Repr

namespace Bound

/-- The bound that a comparison finds in a configured value. -/
def ofJson? (comparison : Comparison) (value : Json) : Option Bound :=
  match comparison with
  | .between =>
    match value with
    | .array [a, b] => do
      let a ← a.toFloat?
      let b ← b.toFloat?
      return pair (Figure.lesser a b) (Figure.greater a b)
    | _ => none
  | _ => value.toFloat?.map single

end Bound

section Meeting

variable {α : Type} [Figure α]

/-- Whether a number meets a bound.  A number that is not finite does not, and neither does any
number meet a bound of the other shape. -/
def Comparison.holds (comparison : Comparison) (x : α) (bound : Bound α) : Bool :=
  Figure.isFinite x &&
    match comparison, bound with
    | .lessThan, .single t => x < t
    | .lessEqual, .single t => x ≤ t
    | .greaterThan, .single t => t < x
    | .greaterEqual, .single t => t ≤ x
    | .equal, .single t => x == t
    | .between, .pair low high => low ≤ x && x ≤ high
    | _, _ => false

/-- A comparison with its bound, which is absent if it could not be read. -/
structure Threshold (α : Type := Float) where
  comparison : Comparison
  bound : Option (Bound α)
deriving DecidableEq, Repr

/-- Whether a number meets the threshold. -/
def Threshold.isMetBy (t : Threshold α) (x : α) : Bool :=
  t.bound.any (t.comparison.holds x)

end Meeting

namespace Threshold

def ofJson (comparison : Comparison) (value : Option Json) : Threshold :=
  ⟨comparison, value.bind (Bound.ofJson? comparison)⟩

def single? (t : Threshold) : Option Float :=
  match t.bound with
  | some (.single v) => some v
  | _ => none

def pair? (t : Threshold) : Option (Float × Float) :=
  match t.bound with
  | some (.pair low high) => some (low, high)
  | _ => none

end Threshold

end Alerting
