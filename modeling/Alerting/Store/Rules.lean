import Alerting.Store
/-!
# Rules in the store

Adding, reading, changing and removing rules.  No two rules have the same id or the same name.
-/

namespace Alerting

structure NewRule where
  id : String
  name : String
  kind : Rule.Kind
  enabled : Bool
  dashboardId : Option String
  widgetId : Option String
  config : String
deriving DecidableEq, Repr, Inhabited

def NewRule.stored (r : NewRule) (now : Instant) : StoredRule where
  id := r.id
  name := r.name
  kindName := r.kind.name
  enabled := r.enabled
  dashboardId := r.dashboardId
  widgetId := r.widgetId
  config := r.config
  lastRunAt := none
  lastStatus := none
  createdAt := now
  updatedAt := now

/-- A change to a rule; what is absent stays as it is. -/
structure RuleEdit where
  name : Option String := none
  kind : Option Rule.Kind := none
  enabled : Option Bool := none
  config : Option String := none
deriving DecidableEq, Repr, Inhabited

open Json.Reader in
def RuleEdit.reader : Json.Reader RuleEdit :=
  record "a change of a rule"
    [.optional "name" (optional string) fun v e => { e with name := v },
     .optional "kind" (optional (keyword Rule.Kind.names)) fun v e => { e with kind := v },
     .optional "enabled" (optional bool) fun v e => { e with enabled := v },
     .optional "config_json" (optional string) fun v e => { e with config := v }]
    {} true

def RuleEdit.apply (edit : RuleEdit) (r : StoredRule) (now : Instant) : StoredRule :=
  { r with
    name := edit.name.getD r.name
    kindName := (edit.kind.map (·.name)).getD r.kindName
    enabled := edit.enabled.getD r.enabled
    config := edit.config.getD r.config
    updatedAt := now }

def StoredRule.withLastRun (r : StoredRule) (finished : Instant) (status : String) : StoredRule :=
  { r with lastRunAt := some finished, lastStatus := some status }

namespace Store

def rule? (s : Store) (id : String) : Option StoredRule :=
  s.rules.find? (·.id = id)

/-- Adds a rule.  A name that is taken is reported before an id that is. -/
def insertRule (s : Store) (r : NewRule) (now : Instant) : Except StoreError (StoredRule × Store) :=
  if s.rules.any (·.name = r.name) then .error (.notUnique .ruleName)
  else if s.rules.any (·.id = r.id) then .error (.notUnique .ruleId)
  else .ok (r.stored now, { s with rules := s.rules ++ [r.stored now] })

def modifyRule (s : Store) (id : String) (change : StoredRule → StoredRule) : Store :=
  { s with rules := s.rules.map fun r => if r.id = id then change r else r }

def updateRule (s : Store) (id : String) (edit : RuleEdit) (now : Instant) :
    Except StoreError (Option StoredRule × Store) :=
  match s.rule? id with
  | none => .ok (none, s)
  | some r =>
    let changed := edit.apply r now
    if s.rules.any fun other => other.id ≠ id && other.name = changed.name then
      .error (.notUnique .ruleName)
    else .ok (some changed, s.modifyRule id fun r => edit.apply r now)

def deleteRule (s : Store) (id : String) : Bool × Store :=
  ((s.rule? id).isSome, { s with rules := s.rules.filter (·.id ≠ id) })

/-- Records the outcome of the last run of a rule, and tells whether there is one with this id.  The
rule does not count as changed. -/
def setLastRun (s : Store) (id : String) (finished : Instant) (status : String) : Bool × Store :=
  ((s.rule? id).isSome, s.modifyRule id fun r => r.withLastRun finished status)

/-- The rules from the newest to the oldest, or a part of them. -/
def listRules (s : Store) (enabled : Option Bool) (limit offset : Nat) : List StoredRule :=
  let wanted := s.rules.filter fun r => enabled.all (· = r.enabled)
  let sorted := wanted.mergeSort fun a b => !a.createdAt.isBefore b.createdAt
  (sorted.drop offset).take limit

/-- The enabled rules from the oldest to the newest. -/
def enabledRules (s : Store) : List StoredRule :=
  (s.rules.filter (·.enabled)).mergeSort fun a b => !b.createdAt.isBefore a.createdAt

end Store

end Alerting
