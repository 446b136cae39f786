import Alerting.Cron
import Alerting.Rule.Config
import Alerting.Store.Rules
/-!
# The schedule

Every enabled rule that has something to evaluate has a job that runs it by a cron expression.  From
time to time the jobs are brought in line with the rules: jobs that are no longer wanted are
removed, jobs with another expression are replaced, and the others are left alone.
-/

namespace Alerting

abbrev Timetable := Dict String

namespace Schedule

def cronOf (config : Rule.Config) (usual : String) : String :=
  Text.trim (config.explicitCron?.getD usual)

/-- The expression that a rule is run by.  A rule that is not enabled, cannot be read or has nothing
to evaluate is not run. -/
def cronOf? (rule : StoredRule) (usual : String) : Option String :=
  if !rule.enabled then none
  else
    match Rule.Config.ofText? rule.config with
    | .error _ => none
    | .ok config => if config.isSchedulable then some (cronOf config usual) else none

def desired (rules : List StoredRule) (usual : String) : Timetable :=
  .ofList <| rules.filterMap fun rule => (cronOf? rule usual).map fun cron => (rule.id, cron)

/-- What has to be done to get from the jobs there are to those there should be. -/
structure Plan where
  add : List (String × String)
  update : List (String × String)
  remove : List String
deriving DecidableEq, Repr, Inhabited

def plan (current desired : Timetable) : Plan where
  add := desired.entries.filter fun (id, _) => !current.contains id
  update := desired.entries.filter fun (id, cron) => (current.get? id).any (· ≠ cron)
  remove := current.keys.filter (!desired.contains ·)

structure Job where
  /-- The number of the job; no two jobs ever have the same. -/
  number : Nat
  cron : String
deriving DecidableEq, Repr, Inhabited

structure Report where
  added : Nat := 0
  updated : Nat := 0
  removed : Nat := 0
  /-- The number of jobs there are. -/
  total : Nat := 0
deriving DecidableEq, Repr, Inhabited

def Report.toJson (r : Report) : Json :=
  .object
    [("added", .int r.added), ("updated", .int r.updated), ("removed", .int r.removed),
     ("total", .int r.total)]

end Schedule

structure Schedule where
  jobs : Dict Schedule.Job := ∅
  /-- The number of the next job. -/
  next : Nat := 0
deriving Inhabited

namespace Schedule

def timetable (s : Schedule) : Timetable :=
  .ofList (s.jobs.entries.map fun (id, job) => (id, job.cron))

def drop (s : Schedule) (id : String) : Schedule :=
  { s with jobs := s.jobs.erase id }

def register (s : Schedule) (id cron : String) : Schedule :=
  { jobs := s.jobs.insert id ⟨s.next, cron⟩, next := s.next + 1 }

/-- The changes that can be made: those to valid expressions. -/
def valid (changes : List (String × String)) : List (String × String) :=
  changes.filter fun (_, cron) => (Cron.ofText? cron).isSome

def registerAll (s : Schedule) (changes : List (String × String)) : Schedule :=
  changes.foldl (fun s (id, cron) => s.register id cron) s

/-- Carries out a plan.  A rule with an invalid expression keeps the job that it has. -/
def carryOut (s : Schedule) (p : Plan) : Report × Schedule :=
  let removed := p.remove.foldl (fun s id => s.drop id) s
  let changed := (removed.registerAll (valid p.update)).registerAll (valid p.add)
  ({ added := (valid p.add).length, updated := (valid p.update).length, removed := p.remove.length
     total := changed.jobs.size },
    changed)

def reconcile (s : Schedule) (rules : List StoredRule) (usual : String) : Report × Schedule :=
  s.carryOut (plan s.timetable (desired rules usual))

def due (s : Schedule) (now : DateTime) : List String :=
  (s.jobs.entries.filter fun (_, job) => (Cron.ofText? job.cron).any (·.fits now)).map (·.1)

def nextRun? (s : Schedule) (id : String) (now : DateTime) : Option DateTime := do
  let job ← s.jobs.get? id
  (← Cron.ofText? job.cron).next? now

end Schedule

end Alerting
