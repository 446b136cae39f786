import Alerting.Json.Reader
import Alerting.Query.Cell
/-!
# Filters

A filter constrains fields by name.  A constraint is read from JSON in this order: bounds of a
range, then a list of members, then a single value.  Bounds can also be written as the array of at
most four of them, so a list has to have five members to be read as one.
-/

namespace Alerting.Query

/-- The bounds of a range; an absent bound does not constrain. -/
structure Bounds where
  gte : Option Json := none
  gt : Option Json := none
  lt : Option Json := none
  lte : Option Json := none
deriving BEq, Inhabited

inductive Constraint where
  | range (bounds : Bounds)
  | list (members : List Json)
  | scalar (value : Json)
deriving BEq, Inhabited

abbrev Filter := Dict Constraint

namespace Bounds

def isUnbounded (b : Bounds) : Bool :=
  b.gte.isNone && b.gt.isNone && b.lt.isNone && b.lte.isNone

/-- The range in words, an inclusive end in square brackets; of two bounds on one side the inclusive
one is shown. -/
def display (b : Bounds) : String :=
  let lower := match b.gte, b.gt with
    | some v, _ => "[" ++ v.display
    | none, some v => "(" ++ v.display
    | none, none => "(…"
  let upper := match b.lte, b.lt with
    | some v, _ => v.display ++ "]"
    | none, some v => v.display ++ ")"
    | none, none => "…)"
  lower ++ ", " ++ upper

open Json.Reader in
def reader : Json.Reader Bounds :=
  record "struct RangeBounds"
    [.optional "gte" (optional json) fun v b => { b with gte := v },
     .optional "gt" (optional json) fun v b => { b with gt := v },
     .optional "lt" (optional json) fun v b => { b with lt := v },
     .optional "lte" (optional json) fun v b => { b with lte := v }]
    {} false

def toJson (b : Bounds) : Json :=
  .object ([("gte", b.gte), ("gt", b.gt), ("lt", b.lt), ("lte", b.lte)].filterMap
    fun (name, bound) => bound.map (name, ·))

end Bounds

namespace Constraint

open Json.Reader in
def reader : Json.Reader Constraint :=
  firstOf "FilterValue" [fun s d => .range <$> Bounds.reader s d,
    fun s d => .list <$> Json.Reader.list json s d,
    fun s d => .scalar <$> json s d]

def toJson : Constraint → Json
  | range bounds => bounds.toJson
  | list members => .array members
  | scalar value => value

def display : Constraint → String
  | range bounds => bounds.display
  | list members => ", ".intercalate (members.map Json.display)
  | scalar value => value.display

end Constraint

namespace Filter

/-- Reads a filter; of several constraints on one field the last counts. -/
def reader : Json.Reader Filter := fun source d => do
  return .ofList (← Json.Reader.named Constraint.reader source d)

def toJson (filter : Filter) : Json :=
  .object (filter.entries.map fun (field, constraint) => (field, constraint.toJson))

end Filter

end Alerting.Query
