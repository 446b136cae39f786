import Alerting.Calendar.Instant
import Alerting.Text.Basic
/-!
# Runs

A run is one invocation of a rule.  It starts out running and ends once, as a success or as a
failure.
-/

namespace Alerting

namespace Run

inductive Status where
  | running
  | ok
  | failed
deriving DecidableEq, Repr, Inhabited

inductive Origin where
  | scheduled
  | manual
deriving DecidableEq, Repr, Inhabited

namespace Status

def name : Status → String
  | running => "running"
  | ok => "ok"
  | failed => "failed"

def names : List (String × Status) :=
  [("running", running), ("ok", ok), ("failed", failed)]

def isFinal : Status → Bool
  | running => false
  | _ => true

def ofText? (s : String) : Option Status :=
  names.lookup (Text.lower s)

def unknownMessage (s : String) : String :=
  "unknown run status: " ++ s

/-- The status that a stored text stands for; an unknown one counts as a failure. -/
def ofStored (s : String) : Status :=
  (ofText? s).getD failed

end Status

namespace Origin

def name : Origin → String
  | scheduled => "scheduled"
  | manual => "manual"

def names : List (String × Origin) :=
  [("scheduled", scheduled), ("manual", manual)]

def ofText? (s : String) : Option Origin :=
  names.lookup (Text.lower s)

def unknownMessage (s : String) : String :=
  "unknown run origin: " ++ s

/-- The origin that a stored text stands for; an unknown one counts as scheduled. -/
def ofStored (s : String) : Origin :=
  (ofText? s).getD scheduled

end Origin

end Run

structure Run where
  id : String
  ruleId : String
  originName : String
  startedAt : Instant
  finishedAt : Option Instant
  statusName : String
  message : String
deriving DecidableEq, Repr, Inhabited

namespace Run

def start (id ruleId : String) (origin : Origin) (now : Instant) : Run where
  id := id
  ruleId := ruleId
  originName := origin.name
  startedAt := now
  finishedAt := none
  statusName := Status.running.name
  message := ""

def origin (r : Run) : Origin :=
  .ofStored r.originName

def status (r : Run) : Status :=
  .ofStored r.statusName

def finish (r : Run) (status : Status) (message : String) (now : Instant) : Run :=
  { r with finishedAt := some now, statusName := status.name, message := message }

end Run

end Alerting
