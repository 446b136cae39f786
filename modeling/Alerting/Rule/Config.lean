import Alerting.Rule.Condition
/-!
# Rule configurations

What a rule does: the triggers that make it fire, the actions it takes then, and how its message
looks.  A configuration is kept as JSON text; it reads back from the text that is written for it.
-/

namespace Alerting.Rule

open Json.Reader Query

inductive Trigger where
  | time (c : TimeCondition)
  | threshold (c : ThresholdCondition)
deriving BEq, Inhabited

inductive Logic where
  | and
  | or
deriving DecidableEq, Repr, Inhabited

structure Group where
  time : Option TimeCondition := none
  threshold : Option ThresholdCondition := none
  logic : Logic := .and
deriving BEq, Inhabited

inductive Action where
  | email (recipients : List String) (subject : String)
  | sms (recipients : List String) (message : String)
deriving DecidableEq, Repr, Inhabited

inductive RenderMode where
  | kpi
  | table
  | chart
deriving DecidableEq, Repr, Inhabited

structure QuerySpec where
  source : String := ""
  aggregate : Aggregate := .count
  measure : Option String := none
  groupBy : List String := []
  filter : Filter := ∅
  limit : Option Nat := none
deriving BEq, Inhabited

structure WidgetRef where
  widgetId : String := ""
  dashboardId : Option String := none
  publicId : Option String := none
deriving DecidableEq, Repr, Inhabited

structure Render where
  mode : RenderMode := .kpi
  query : Option QuerySpec := none
  widget : Option WidgetRef := none
  label : Option String := none
deriving BEq, Inhabited

structure Config where
  datasource : Option String := none
  triggers : List Trigger := []
  group : Option Group := none
  actions : List Action := []
  render : Render := {}
  template : Option String := none
  cardTemplate : Option String := none
deriving BEq, Inhabited

/-! ## Reading -/

def Trigger.reader : Json.Reader Trigger :=
  tagged "internally tagged enum Trigger" "type"
    [("time", fun s d => .time <$> TimeCondition.reader s d),
     ("threshold", fun s d => .threshold <$> ThresholdCondition.reader s d)]

namespace Logic

def names : List (String × Logic) :=
  [("AND", and), ("and", and), ("OR", or), ("or", or)]

def name : Logic → String
  | and => "AND"
  | or => "OR"

def reader : Json.Reader Logic :=
  keyword names

def combine : Logic → Bool → Bool → Bool
  | and, a, b => a && b
  | or, a, b => a || b

end Logic

def Group.reader : Json.Reader Group :=
  record "struct GroupedTrigger"
    [.optional "time" (optional TimeCondition.reader) fun v g => { g with time := v },
     .optional "threshold" (optional ThresholdCondition.reader)
       fun v g => { g with threshold := v },
     .optional "logic" Logic.reader fun v g => { g with logic := v }]
    {} true

def splitRecipients (text : String) : List String :=
  (text.toList.splitOnP fun c => c = ',' || c = ';').map String.ofList

/-- Reads recipients, as one text or as an array.  They are trimmed, and blank ones are left out. -/
def recipients : Json.Reader (List String) := fun source d => do
  let texts ← firstOf "OneOrMany"
    [fun s d => splitRecipients <$> string s d, list string] source d
  return (texts.map Text.trim).filter (· ≠ "")

structure ActionParts where
  recipients : List String := []
  text : String := ""

def Action.reader : Json.Reader Action :=
  let parts (title textName : String) : Json.Reader ActionParts :=
    record title
      [.mandatory "to" Rule.recipients fun v p => { p with recipients := v },
       .optional textName string fun v p => { p with text := v }]
      {} true
  tagged "internally tagged enum Action" "type"
    [("email", fun s d => (fun p => .email p.recipients p.text) <$>
        parts "struct variant Action::Email" "subject" s d),
     ("sms", fun s d => (fun p => .sms p.recipients p.text) <$>
        parts "struct variant Action::Sms" "message" s d)]

namespace RenderMode

def names : List (String × RenderMode) :=
  [("kpi", kpi), ("table", table), ("chart", chart)]

def name : RenderMode → String
  | kpi => "kpi"
  | table => "table"
  | chart => "chart"

end RenderMode

def QuerySpec.reader : Json.Reader QuerySpec :=
  record "struct QuerySpec"
    [.mandatory "source" string fun v q => { q with source := v },
     .optional "aggregator" Aggregate.reader fun v q => { q with aggregate := v },
     .optional "measure" (optional string) fun v q => { q with measure := v },
     .optional "groupBy" oneOrMany fun v q => { q with groupBy := v },
     .optional "filters" Filter.reader fun v q => { q with filter := v },
     .optional "limit" (optional (natural "usize" (Nat.pow 2 64))) fun v q => { q with limit := v }]
    {} true

def WidgetRef.reader : Json.Reader WidgetRef :=
  record "struct WidgetRef"
    [.mandatory "widgetId" string fun v w => { w with widgetId := v },
     .optional "dashboardId" (optional string) fun v w => { w with dashboardId := v },
     .optional "publicId" (optional string) fun v w => { w with publicId := v }]
    {} true

def Render.reader : Json.Reader Render :=
  record "struct RenderSpec"
    [.optional "mode" (keyword RenderMode.names) fun v r => { r with mode := v },
     .optional "querySpec" (optional QuerySpec.reader) fun v r => { r with query := v },
     .optional "widgetRef" (optional WidgetRef.reader) fun v r => { r with widget := v },
     .optional "label" (optional string) fun v r => { r with label := v }]
    {} true

def Config.reader : Json.Reader Config :=
  record "struct RuleConfig"
    [.optional "datasourceId" (optional string) fun v c => { c with datasource := v },
     .optional "triggers" (list Trigger.reader) fun v c => { c with triggers := v },
     .optional "triggersGroup" (optional Group.reader) fun v c => { c with group := v },
     .optional "actions" (list Action.reader) fun v c => { c with actions := v },
     .optional "render" Render.reader fun v c => { c with render := v },
     .optional "template" (optional string) fun v c => { c with template := v },
     .optional "cardTemplate" (optional string) fun v c => { c with cardTemplate := v }]
    {} true

def Config.ofText? (text : String) : Except Json.Fault Config :=
  Json.Reader.ofText Config.reader text

/-! ## Writing -/

def Trigger.toJson : Trigger → Json
  | time c => .object (("type", .string "time") :: c.fields)
  | threshold c => .object (("type", .string "threshold") :: c.fields)

def Group.toJson (g : Group) : Json :=
  .object
    [("time", g.time.elim .null fun c => .object c.fields),
     ("threshold", g.threshold.elim .null fun c => .object c.fields),
     ("logic", .string g.logic.name)]

def Action.toJson : Action → Json
  | email recipients subject =>
    .object [("type", .string "email"), ("to", .ofStrings recipients), ("subject", .string subject)]
  | sms recipients message =>
    .object [("type", .string "sms"), ("to", .ofStrings recipients), ("message", .string message)]

def QuerySpec.toJson (q : QuerySpec) : Json :=
  .object
    [("source", .string q.source), ("aggregator", .string q.aggregate.name),
     ("measure", .ofString? q.measure), ("groupBy", .ofStrings q.groupBy),
     ("filters", q.filter.toJson), ("limit", q.limit.elim .null fun n => .int n)]

def WidgetRef.toJson (w : WidgetRef) : Json :=
  .object
    [("widgetId", .string w.widgetId), ("dashboardId", .ofString? w.dashboardId),
     ("publicId", .ofString? w.publicId)]

def Render.toJson (r : Render) : Json :=
  .object
    [("mode", .string r.mode.name), ("querySpec", r.query.elim .null QuerySpec.toJson),
     ("widgetRef", r.widget.elim .null WidgetRef.toJson), ("label", .ofString? r.label)]

def Config.toJson (c : Config) : Json :=
  .object
    [("datasourceId", .ofString? c.datasource),
     ("triggers", .array (c.triggers.map Trigger.toJson)),
     ("triggersGroup", c.group.elim .null Group.toJson),
     ("actions", .array (c.actions.map Action.toJson)), ("render", c.render.toJson),
     ("template", .ofString? c.template), ("cardTemplate", .ofString? c.cardTemplate)]

/-! ## What is scheduled -/

def Trigger.cron? : Trigger → Option String
  | time c => c.cron
  | threshold c => c.cron

def Trigger.threshold? : Trigger → Option ThresholdCondition
  | time _ => none
  | threshold c => some c

namespace Config

/-- The first cron expression on any trigger, those of the group first; none if that one is blank.
-/
def explicitCron? (c : Config) : Option String :=
  let grouped := c.group.bind fun g => (g.time.bind (·.cron)) <|> (g.threshold.bind (·.cron))
  (grouped <|> c.triggers.findSome? Trigger.cron?).filter (!Text.isBlankText ·)

def isSchedulable (c : Config) : Bool :=
  c.group.any (fun g => g.time.isSome || g.threshold.isSome) || !c.triggers.isEmpty

/-- The threshold condition that messages speak about. -/
def primaryThreshold? (c : Config) : Option ThresholdCondition :=
  (c.group.bind (·.threshold)) <|> c.triggers.findSome? Trigger.threshold?

end Config

end Alerting.Rule
