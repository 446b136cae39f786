import Alerting.Json.Reader
import Alerting.Store
/-!
# The store as a document

What is kept as JSON, so that it can be written to a file and read again.  Every row is an object
with a field for each column; points of time are written as texts.
-/

namespace Alerting

open Delivery Json.Reader

/-! ## Writing -/

def Instant.toJson (i : Instant) : Json :=
  .string i.text

def StoredRule.toJson (r : StoredRule) : Json :=
  .object
    [("id", .string r.id), ("name", .string r.name), ("kind", .string r.kindName),
     ("enabled", .bool r.enabled), ("dashboard_id", .ofString? r.dashboardId),
     ("widget_id", .ofString? r.widgetId), ("config_json", .string r.config),
     ("last_run_at", r.lastRunAt.elim .null Instant.toJson),
     ("last_status", .ofString? r.lastStatus),
     ("created_at", r.createdAt.toJson), ("updated_at", r.updatedAt.toJson)]

def Run.toJson (r : Run) : Json :=
  .object
    [("id", .string r.id), ("rule_id", .string r.ruleId), ("origin", .string r.originName),
     ("started_at", r.startedAt.toJson), ("finished_at", r.finishedAt.elim .null Instant.toJson),
     ("status", .string r.statusName), ("message", .string r.message)]

def StoredEmail.toJson (e : StoredEmail) : Json :=
  let s := e.settings
  .object
    [("id", .string e.id), ("host", .string s.host), ("port", .int e.port),
     ("username", .ofString? s.username), ("password_enc", .ofString? e.password),
     ("use_tls", .bool s.useTls), ("from_address", .string s.fromAddress),
     ("from_name", .ofString? s.fromName), ("brand_name", .string s.brandName),
     ("logo", .ofString? s.logo), ("base_template", .ofString? s.baseTemplate),
     ("footer_text", .ofString? s.footerText)]

def StoredSms.toJson (e : StoredSms) : Json :=
  .object
    [("id", .string e.id), ("gateway_url", .string e.settings.gatewayUrl),
     ("api_key_enc", .string e.apiKey), ("sender", .ofString? e.settings.sender)]

/-- Everything that is kept as JSON; the key is kept elsewhere. -/
def Store.toJson (s : Store) : Json :=
  .object
    [("alert_rules", .array (s.rules.map StoredRule.toJson)),
     ("alert_runs", .array (s.runs.map Run.toJson)),
     ("email_config", .array (s.email.map StoredEmail.toJson)),
     ("sms_config", .array (s.sms.map StoredSms.toJson))]

/-! ## Reading -/

def Instant.reader : Json.Reader Instant :=
  string.refine fun s => (Instant.ofText? s).elim (.error ("unknown instant: " ++ s)) .ok

def integer : Json.Reader Int :=
  json.refine fun
    | .number (.int n) => .ok n
    | j => .error ("not an integer: " ++ j.text)

def StoredRule.reader : Json.Reader StoredRule :=
  record "a rule"
    [.mandatory "id" string fun v r => { r with id := v },
     .mandatory "name" string fun v r => { r with name := v },
     .mandatory "kind" string fun v r => { r with kindName := v },
     .mandatory "enabled" bool fun v r => { r with enabled := v },
     .optional "dashboard_id" (optional string) fun v r => { r with dashboardId := v },
     .optional "widget_id" (optional string) fun v r => { r with widgetId := v },
     .mandatory "config_json" string fun v r => { r with config := v },
     .optional "last_run_at" (optional Instant.reader) fun v r => { r with lastRunAt := v },
     .optional "last_status" (optional string) fun v r => { r with lastStatus := v },
     .mandatory "created_at" Instant.reader fun v r => { r with createdAt := v },
     .mandatory "updated_at" Instant.reader fun v r => { r with updatedAt := v }]
    default false

def Run.reader : Json.Reader Run :=
  record "a run"
    [.mandatory "id" string fun v r => { r with id := v },
     .mandatory "rule_id" string fun v r => { r with ruleId := v },
     .mandatory "origin" string fun v r => { r with originName := v },
     .mandatory "started_at" Instant.reader fun v r => { r with startedAt := v },
     .optional "finished_at" (optional Instant.reader) fun v r => { r with finishedAt := v },
     .mandatory "status" string fun v r => { r with statusName := v },
     .mandatory "message" string fun v r => { r with message := v }]
    default false

private def StoredEmail.modify (e : StoredEmail) (change : EmailSettings → EmailSettings) :
    StoredEmail :=
  { e with settings := change e.settings }

def StoredEmail.reader : Json.Reader StoredEmail :=
  record "settings for mail"
    [.mandatory "id" string fun v e => { e with id := v },
     .mandatory "host" string fun v e => e.modify fun s => { s with host := v },
     .mandatory "port" integer fun v e => { e with port := v },
     .optional "username" (optional string) fun v e => e.modify fun s => { s with username := v },
     .optional "password_enc" (optional string) fun v e => { e with password := v },
     .mandatory "use_tls" bool fun v e => e.modify fun s => { s with useTls := v },
     .mandatory "from_address" string fun v e => e.modify fun s => { s with fromAddress := v },
     .optional "from_name" (optional string) fun v e => e.modify fun s => { s with fromName := v },
     .mandatory "brand_name" string fun v e => e.modify fun s => { s with brandName := v },
     .optional "logo" (optional string) fun v e => e.modify fun s => { s with logo := v },
     .optional "base_template" (optional string)
       fun v e => e.modify fun s => { s with baseTemplate := v },
     .optional "footer_text" (optional string)
       fun v e => e.modify fun s => { s with footerText := v }]
    ⟨"", {}, 0, none⟩ false

def StoredSms.reader : Json.Reader StoredSms :=
  record "settings for short messages"
    [.mandatory "id" string fun v e => { e with id := v },
     .mandatory "gateway_url" string fun v e =>
        { e with settings := { e.settings with gatewayUrl := v } },
     .mandatory "api_key_enc" string fun v e => { e with apiKey := v },
     .optional "sender" (optional string) fun v e =>
        { e with settings := { e.settings with sender := v } }]
    ⟨"", {}, ""⟩ false

/-- Reads everything that is kept; the secrets in it are under this key. -/
def Store.reader (key : Secret.Key) : Json.Reader Store :=
  record "a store"
    [.mandatory "alert_rules" (list StoredRule.reader) fun v s => { s with rules := v },
     .mandatory "alert_runs" (list Run.reader) fun v s => { s with runs := v },
     .mandatory "email_config" (list StoredEmail.reader) fun v s => { s with email := v },
     .mandatory "sms_config" (list StoredSms.reader) fun v s => { s with sms := v }]
    { key := key } false

end Alerting
