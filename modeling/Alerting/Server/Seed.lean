import Alerting.Rule.Config
import Alerting.Store.Rules
import Alerting.Store.Settings
/-!
# Seeds

A seed holds rules and settings to start a store with.  Rules that the store is known to have
already, by name, and rules whose configuration cannot be read are left out; settings replace what
is there.
-/

namespace Alerting.Server

open Delivery Json.Reader

structure SeedRule where
  name : String := ""
  kind : Rule.Kind := .alert
  enabled : Bool := true
  dashboardId : Option String := none
  widgetId : Option String := none
  config : Json := .null
deriving Inhabited

structure Seed where
  rules : List SeedRule := []
  email : Option EmailSettings := none
  sms : Option SmsSettings := none
deriving Inhabited

namespace SeedRule

def reader : Json.Reader SeedRule :=
  record "a rule of a seed"
    [.mandatory "name" string fun v r => { r with name := v },
     .optional "kind" (keyword Rule.Kind.names) fun v r => { r with kind := v },
     .optional "enabled" bool fun v r => { r with enabled := v },
     .optional "dashboard_id" (optional string) fun v r => { r with dashboardId := v },
     .optional "widget_id" (optional string) fun v r => { r with widgetId := v },
     .mandatory "config" json fun v r => { r with config := v }]
    {} true

def configText (r : SeedRule) : String :=
  r.config.text

def isValid (r : SeedRule) : Bool :=
  (Rule.Config.ofText? r.configText).toOption.isSome

def toJson (r : SeedRule) : Json :=
  .object
    [("name", .string r.name), ("kind", .string r.kind.name), ("enabled", .bool r.enabled),
     ("dashboard_id", .ofString? r.dashboardId), ("widget_id", .ofString? r.widgetId),
     ("config", r.config), ("valid", .bool r.isValid)]

def newRule (r : SeedRule) (id : String) : NewRule where
  id := id
  name := r.name
  kind := r.kind
  enabled := r.enabled
  dashboardId := r.dashboardId
  widgetId := r.widgetId
  config := r.configText

end SeedRule

namespace Seed

def reader : Json.Reader Seed :=
  record "a seed"
    [.optional "rules" (list SeedRule.reader) fun v s => { s with rules := v },
     .optional "email" (optional EmailSettings.reader) fun v s => { s with email := v },
     .optional "sms" (optional SmsSettings.reader) fun v s => { s with sms := v }]
    {} true

/-- How many rules of a store are looked at before a seed is planted. -/
def knownLimit : Nat := 10000

/-- The rules that a store is asked to add: those that can be read and have a name that none of its
newest rules has. -/
def wanted (seed : Seed) (s : Store) : List SeedRule :=
  let known := s.listRules none knownLimit 0
  seed.rules.filter fun r => !(known.any (·.name = r.name)) && r.isValid

def saveSettings (seed : Seed) (emailNonce smsNonce : Secret.Nonce) (s : Store) : Store :=
  let s := seed.email.elim s (s.saveEmail emailNonce)
  seed.sms.elim s (s.saveSms smsNonce)

end Seed

end Alerting.Server
