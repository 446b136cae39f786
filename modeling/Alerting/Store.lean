import Alerting.Delivery.Settings
import Alerting.Run
import Alerting.Secret
import Alerting.Text.Basic
/-!
# The store

What is kept: rules, the runs of rules, and the settings for sending.  A rule is an alert, which
reacts to a condition, or a notification, a digest that is usually only scheduled.  Names of kinds,
origins and statuses are kept as texts, so a rule or run with a name that nobody knows can still be
read.  Secrets are kept encrypted.
-/

namespace Alerting.Rule

/-! ## Kinds of rules -/

inductive Kind where
  | alert
  | notification
deriving DecidableEq, Repr, Inhabited

namespace Kind

def name : Kind → String
  | alert => "alert"
  | notification => "notification"

def names : List (String × Kind) :=
  [("alert", alert), ("notification", notification)]

def ofText? (s : String) : Option Kind :=
  names.lookup (Text.lower s)

def unknownMessage (s : String) : String :=
  "unknown rule kind: " ++ s

/-- The kind that a stored text stands for; an unknown one counts as an alert. -/
def ofStored (s : String) : Kind :=
  (ofText? s).getD alert

end Kind

end Alerting.Rule

namespace Alerting

/-! ## Rows -/

structure StoredRule where
  id : String
  name : String
  kindName : String
  enabled : Bool
  dashboardId : Option String
  widgetId : Option String
  /-- The text of the configuration. -/
  config : String
  lastRunAt : Option Instant
  lastStatus : Option String
  createdAt : Instant
  updatedAt : Instant
deriving DecidableEq, Repr, Inhabited

namespace StoredRule

def kind (r : StoredRule) : Rule.Kind :=
  .ofStored r.kindName

def isEdited (r : StoredRule) : Bool :=
  r.createdAt.isBefore r.updatedAt

end StoredRule

structure StoredEmail where
  id : String
  /-- All settings but the port and the password. -/
  settings : Delivery.EmailSettings
  port : Int
  /-- The encrypted password. -/
  password : Option String
deriving DecidableEq, Inhabited

structure StoredSms where
  id : String
  /-- All settings but the key. -/
  settings : Delivery.SmsSettings
  /-- The encrypted key, or an empty text. -/
  apiKey : String
deriving DecidableEq, Inhabited

structure Store where
  key : Secret.Key
  /-- The rules in the order in which they were added. -/
  rules : List StoredRule := []
  /-- The runs in the order in which they were started. -/
  runs : List Run := []
  /-- The table of settings for mail; the store itself makes one row. -/
  email : List StoredEmail := []
  /-- The table of settings for short messages; the store itself makes one row. -/
  sms : List StoredSms := []

/-- Texts that have to differ from row to row of a table. -/
inductive UniqueField where
  | ruleId
  | ruleName
  | runId
  | emailId
  | smsId
deriving DecidableEq, Repr

def UniqueField.path : UniqueField → String
  | ruleId => "alert_rules.id"
  | ruleName => "alert_rules.name"
  | runId => "alert_runs.id"
  | emailId => "email_config.id"
  | smsId => "sms_config.id"

inductive StoreError where
  | notUnique (field : UniqueField)
  | notFinal (runId : String) (status : Run.Status)
  | runNotFound (runId : String)
  /-- The run is over, or its status is not known. -/
  | alreadyFinal (runId statusName : String)
  | emailPassword (error : SecretError)
  | emailPort (port : Int)
  | smsKey (error : SecretError)
deriving DecidableEq, Repr

def StoreError.failure : StoreError → Failure
  | notUnique field => .ofMessage ("UNIQUE constraint failed: " ++ field.path)
  | notFinal id status => .ofMessage ("run " ++ id ++ " cannot be finalized as " ++ status.name)
  | runNotFound id => .ofMessage ("run " ++ id ++ " not found")
  | alreadyFinal id status => .ofMessage ("run " ++ id ++ " is already finalized as " ++ status)
  | emailPassword error => error.failure.within "decrypting SMTP password"
  | emailPort port =>
    ⟨"invalid SMTP port " ++ toString port, ["out of range integral type conversion attempted"]⟩
  | smsKey error => error.failure.within "decrypting SMS api key"

end Alerting
