import Alerting.Rule.Config
/-!
# Evaluation

Whether a rule fires at a time, and what it found.  The conditions are evaluated in a dialogue with
the query engine that cannot fail: every step has a fallback.
-/

namespace Alerting

open Query Rule

inductive Outcome where
  | notFired (kpi : Float) (breakdown : Option Breakdown)
  | fired (kpi : Float)
  | firedPerCategory (breakdown : Breakdown)
deriving DecidableEq, Inhabited

namespace Outcome

def isFired : Outcome → Bool
  | notFired .. => false
  | _ => true

def kpi : Outcome → Float
  | notFired kpi _ => kpi
  | fired kpi => kpi
  | firedPerCategory b => b.kpi

def breakdown? : Outcome → Option Breakdown
  | notFired _ b => b
  | fired _ => none
  | firedPerCategory b => some b

def ofBreakdown (b : Breakdown) : Outcome :=
  if b.fires then firedPerCategory b else notFired b.kpi (some b)

def ofKpi (threshold : Threshold) (kpi : Float) : Outcome :=
  if threshold.isMetBy kpi then fired kpi else notFired kpi none

end Outcome

structure ThresholdEvaluation where
  condition : ThresholdCondition
  pick : Pick.Resolution
  outcome : Outcome
deriving Inhabited

structure Evaluation where
  isFired : Bool
  kpi : Option Float
  /-- Whether the time side of the group is met, if it has one. -/
  timeMet : Option Bool
  /-- The threshold that fired, or the last one evaluated. -/
  threshold : Option ThresholdEvaluation
deriving Inhabited

namespace Evaluation

def breakdown? (e : Evaluation) : Option Breakdown :=
  e.threshold.bind (·.outcome.breakdown?)

end Evaluation

namespace Rule

def ThresholdCondition.pickContext (c : ThresholdCondition) : Pick.Context :=
  { source := c.source, filter := c.filter, xField := c.xField, xValue := c.xValue, pick := c.pick }

def ThresholdCondition.kpi (c : ThresholdCondition) (filter : Filter) : Kpi :=
  { source := c.source, aggregate := c.aggregate, measure := c.measure, filter := filter
    xField := c.xField, strategy := c.strategy }

/-- Evaluates a condition by category where that is possible, and by its single number otherwise. -/
def ThresholdCondition.outcome (c : ThresholdCondition) (filter : Filter) : Asking Outcome := do
  let kpi := c.kpi filter
  if Breakdown.isActive c.legend filter then
    match ← Breakdown.resolve? kpi c.legend c.threshold with
    | .ok b => return .ofBreakdown b
    | .error _ => return .ofKpi c.threshold (← kpi.resolve)
  else return .ofKpi c.threshold (← kpi.resolve)

def ThresholdCondition.evaluate (c : ThresholdCondition) (today : Date) :
    Asking ThresholdEvaluation := do
  let pick ← c.pickContext.resolve today
  return ⟨c, pick, ← c.outcome pick.filter⟩

/-- Evaluates both sides of a group; a side that is not there counts as met. -/
def Group.evaluate (g : Group) (now : DateTime) (force : Bool) : Asking Evaluation := do
  let timeMet := g.time.map (·.isMetAt now force)
  let threshold ← match g.threshold with
    | some c => some <$> c.evaluate now.date
    | none => pure none
  return {
    isFired := g.logic.combine (timeMet.getD true) (threshold.all (·.outcome.isFired))
    kpi := threshold.map (·.outcome.kpi)
    timeMet := timeMet
    threshold := threshold }

/-- Evaluates triggers until one fires.  A time trigger fires as soon as it is reached: it is only
evaluated on its own schedule. -/
def evaluateTriggers (today : Date) (last : Option ThresholdEvaluation) :
    List Trigger → Asking Evaluation
  | [] => return ⟨false, last.map (·.outcome.kpi), none, last⟩
  | .time _ :: _ => return ⟨true, none, none, none⟩
  | .threshold c :: rest => do
    let e ← c.evaluate today
    if e.outcome.isFired then return ⟨true, some e.outcome.kpi, none, some e⟩
    else evaluateTriggers today (some e) rest

/-- Evaluates a rule: its group if it has one, or else its triggers. -/
def Config.evaluate (c : Config) (now : DateTime) (force : Bool) : Asking Evaluation :=
  match c.group with
  | some g => g.evaluate now force
  | none => evaluateTriggers now.date none c.triggers

end Rule

/-! ## As JSON -/

def Pick.Resolution.toJson (r : Pick.Resolution) : Json :=
  .object
    [("filter", r.filter.toJson), ("value", .ofString? r.value), ("pretty", .ofString? r.pretty)]

namespace Breakdown

def Part.toJson (part : Part) : Json :=
  .object [("label", .string part.label), ("value", .ofFloat part.value)]

def Card.toJson (card : Card) : Json :=
  .object
    [("category", .string card.category), ("value", .ofFloat card.value),
     ("matched", .bool card.isMatch),
     ("children", .array (card.parts.map Part.toJson))]

def toFields (b : Breakdown) : List (String × Json) :=
  [("fields", .ofStrings b.fields), ("cards", .array (b.cards.map Card.toJson)),
   ("selection", match b.selection with
      | .ofMatches category kpi => .object
          [("kind", .string "matched"), ("category", .string category), ("kpi", .ofFloat kpi)]
      | .ofNoMatch category value => .object
          [("kind", .string "noMatchFallback"), ("category", .string category),
           ("value", .ofFloat value)])]

def toJson (b : Breakdown) : Json :=
  .object b.toFields

end Breakdown

def Outcome.toJson : Outcome → Json
  | notFired kpi breakdown => .object
      [("outcome", .string "not_fired"), ("kpi", .ofFloat kpi),
       ("breakdown", breakdown.elim .null Breakdown.toJson)]
  | fired kpi => .object [("outcome", .string "fired"), ("kpi", .ofFloat kpi)]
  | firedPerCategory b => .object (("outcome", .string "fired_per_category") :: b.toFields)

def Evaluation.toJson (e : Evaluation) : Json :=
  .object
    [("fired", .bool e.isFired), ("kpi", e.kpi.elim .null .ofFloat),
     ("time_ok", e.timeMet.elim .null .bool),
     ("threshold", e.threshold.elim .null fun t => .object
        [("condition", .object t.condition.fields), ("xpick", t.pick.toJson),
         ("outcome", t.outcome.toJson)])]

end Alerting
