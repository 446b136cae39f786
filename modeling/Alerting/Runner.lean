import Alerting.Delivery
import Alerting.Message
import Alerting.Store.Rules
import Alerting.Store.Runs
/-!
# Running rules

Running a rule reads its configuration and evaluates its triggers.  If they fire, the message is
made and every action is carried out, whatever became of the actions before it.  A run is recorded
before anything else happens, and completed whatever came of it.

A preview is what a rule would send, without sending it.  It takes every time condition as met, so
it does not depend on when it is made.
-/

namespace Alerting

open Delivery Rule

/-! ## Previews -/

structure Preview where
  html : String
  /-- The text of the first short message. -/
  sms : Option String
  tokens : Tokens
  evaluation : Evaluation

namespace Preview

def firstShort? (m : Message) (config : Config) : Option String :=
  config.actions.findSome? fun
    | .sms _ text => some (m.short text)
    | .email .. => none

def make (config : Config) (now : DateTime) (camera : Option Shot) : Making Preview := do
  let evaluation ← Making.ofAsking (config.evaluate now true)
  let m ← Message.make config evaluation camera
  let short? := firstShort? m config
  return { html := m.html, sms := short?, tokens := m.tokens, evaluation := evaluation }

def toJson (p : Preview) : Json :=
  .object
    [("fired", .bool p.evaluation.isFired), ("kpi", p.evaluation.kpi.elim .null .ofFloat),
     ("html", .string p.html), ("sms", .ofString? p.sms),
     ("context", .object (p.tokens.entries.map fun (name, text) => (name, .string text))),
     ("evaluation", p.evaluation.toJson)]

end Preview

namespace Runner

/-! ## Needs -/

inductive Need where
  | material (m : Material)
  | sendEmail (mail : Mail)
  | sendSms (recipients : List String) (message : String)
  /-- What the clock on the wall shows. -/
  | localTime
  | instant
  /-- An id that nothing else has. -/
  | freshId
deriving Inhabited

abbrev Need.Reply : Need → Type
  | material m => m.Reply
  | sendEmail _ => SendOutcome
  | sendSms .. => SendOutcome
  | localTime => DateTime
  | instant => Instant
  | freshId => String

abbrev Running := Dialogue Need Need.Reply

def need (n : Need) : Running n.Reply :=
  .put n

def make {α : Type} (d : Making α) : Running α :=
  d.embed .material fun _ reply => reply

end Runner

/-! ## Outcomes -/

inductive RunError where
  | config (fault : Json.Fault)
  | store (error : StoreError)
  | ruleNotFound (id : String)
deriving DecidableEq, Repr

def RunError.message : RunError → String
  | config fault => "Run: invalid rule configuration: " ++ fault.message
  | store error => "Run: storage error: " ++ error.failure.full
  | ruleNotFound id => "Run: rule " ++ id ++ " not found"

structure RunOutcome where
  isOk : Bool
  message : String
deriving DecidableEq, Repr, Inhabited

namespace RunOutcome

def toJson (o : RunOutcome) : Json :=
  .object [("ok", .bool o.isOk), ("message", .string o.message)]

def notFired : RunOutcome :=
  ⟨true, "No trigger fired"⟩

def status (o : RunOutcome) : Run.Status :=
  if o.isOk then .ok else .failed

def maxRecorded : Nat := 4000

def recorded (o : RunOutcome) : String :=
  Text.truncate o.message maxRecorded

end RunOutcome

inductive Verdict where
  | fired
  | notFired
  | error
deriving DecidableEq, Repr, Inhabited

structure Verdicts where
  fired : Nat := 0
  notFired : Nat := 0
  error : Nat := 0
deriving DecidableEq, Repr, Inhabited

namespace Verdicts

def count (v : Verdicts) : Verdict → Verdicts
  | .fired => { v with fired := v.fired + 1 }
  | .notFired => { v with notFired := v.notFired + 1 }
  | .error => { v with error := v.error + 1 }

def family (v : Verdicts) : CounterFamily where
  name := "vigil_evaluations_total"
  help := "rule evaluations by outcome"
  series :=
    [([("outcome", "error")], v.error), ([("outcome", "fired")], v.fired),
     ([("outcome", "not_fired")], v.notFired)]

def toJson (v : Verdicts) : Json :=
  .object
    [("fired", .int v.fired), ("not_fired", .int v.notFired), ("error", .int v.error),
     ("families", .array [v.family.toJson])]

end Verdicts

/-! ## Actions -/

structure ActionReport where
  channel : Channel
  recipients : Nat
  outcome : SendOutcome
deriving DecidableEq, Repr, Inhabited

namespace ActionReport

def isOk (r : ActionReport) : Bool :=
  r.outcome.isOk && r.outcome.error.isNone

def text (r : ActionReport) : String :=
  if r.isOk then r.channel.name ++ " sent to " ++ toString r.recipients ++ " recipient(s)"
  else r.channel.name ++ " failed: " ++ r.outcome.error.getD "unknown error"

end ActionReport

namespace RunOutcome

def ofReports (kpi : Option Float) (reports : List ActionReport) : RunOutcome :=
  let head := match kpi with
    | some x => "Fired (kpi " ++ Numeric.groupedFigure x ++ ")"
    | none => "Fired"
  if reports.isEmpty then ⟨true, head ++ "; no actions configured"⟩
  else ⟨reports.all (·.isOk), head ++ ": " ++ "; ".intercalate (reports.map (·.text))⟩

end RunOutcome

structure Runner where
  store : Store
  verdicts : Verdicts := {}

namespace Runner

/-- Carries out an action.  A mail without a subject has the name of the rule as its subject. -/
def carryOut (rule : StoredRule) (m : Message) : Action → Running ActionReport
  | .email recipients subject => do
    let template := if Text.isBlankText subject then rule.name else subject
    let outcome ← need (.sendEmail ⟨m.subject template, recipients, m.html, m.images⟩)
    return ⟨.email, recipients.length, outcome⟩
  | .sms recipients text => do
    let outcome ← need (.sendSms recipients (m.short text))
    return ⟨.sms, recipients.length, outcome⟩

def carryOutAll (rule : StoredRule) (m : Message) : List Action → Running (List ActionReport)
  | [] => return []
  | action :: rest => do
    let report ← carryOut rule m action
    let reports ← carryOutAll rule m rest
    return report :: reports

/-- Does the work of a run.  If `force` holds, time conditions count as met. -/
def execute (rule : StoredRule) (force : Bool) (camera : Option Shot) :
    Running (Verdict × Except RunError RunOutcome) := do
  match Config.ofText? rule.config with
  | .error fault => return (.error, .error (.config fault))
  | .ok config =>
    let evaluation ← make (Making.ofAsking (config.evaluate (← need .localTime) force))
    if evaluation.isFired then
      let m ← make (Message.make config evaluation camera)
      let reports ← carryOutAll rule m config.actions
      return (.fired, .ok (.ofReports evaluation.kpi reports))
    else return (.notFired, .ok .notFired)

def outcomeOf : Except RunError RunOutcome → RunOutcome
  | .ok outcome => outcome
  | .error e => ⟨false, e.message⟩

/-- What the caller of a run is told.  Who starts a run by hand learns of an error as such. -/
def report (origin : Run.Origin) (result : Except RunError RunOutcome) :
    Except RunError RunOutcome :=
  match origin with
  | .manual => result
  | .scheduled => .ok (outcomeOf result)

/-- Records how a run ended.  What cannot be recorded is left out. -/
def conclude (s : Store) (runId ruleId : String) (outcome : RunOutcome) : Running Store := do
  let ended ← need .instant
  let s := match s.finalizeRun runId outcome.status outcome.recorded ended with
    | .ok (_, s) => s
    | .error _ => s
  let recorded ← need .instant
  return (s.setLastRun ruleId recorded outcome.recorded).2

def run (runner : Runner) (rule : StoredRule) (force : Bool) (origin : Run.Origin)
    (camera : Option Shot) : Running (Except RunError RunOutcome × Runner) := do
  let id ← need .freshId
  match runner.store.startRun id rule.id origin (← need .instant) with
  | .error e => return (.error (.store e), runner)
  | .ok (_, store) =>
    let (verdict, result) ← execute rule force camera
    let store ← conclude store id rule.id (outcomeOf result)
    return (report origin result, ⟨store, runner.verdicts.count verdict⟩)

/-- Runs the rule with an id because its time has come.  A rule that is gone or not enabled is
passed over. -/
def runScheduled (runner : Runner) (id : String) (camera : Option Shot) : Running Runner :=
  match (runner.store.rule? id).filter (·.enabled) with
  | none => return runner
  | some rule => do
    let (_, runner) ← runner.run rule false .scheduled camera
    return runner

def runById (runner : Runner) (id : String) (force : Bool) (origin : Run.Origin)
    (camera : Option Shot) : Running (Except RunError RunOutcome × Runner) :=
  match runner.store.rule? id with
  | none => return (.error (.ruleNotFound id), runner)
  | some rule => runner.run rule force origin camera

end Runner

end Alerting
