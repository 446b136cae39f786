import Alerting.Store
/-!
# Runs in the store

A run is recorded when it starts and completed once; runs are never removed.
-/

namespace Alerting.Store

def run? (s : Store) (id : String) : Option Run :=
  s.runs.find? (·.id = id)

def startRun (s : Store) (id ruleId : String) (origin : Run.Origin) (now : Instant) :
    Except StoreError (Run × Store) :=
  if s.runs.any (·.id = id) then .error (.notUnique .runId)
  else
    let run := Run.start id ruleId origin now
    .ok (run, { s with runs := s.runs ++ [run] })

def finalizeRun (s : Store) (id : String) (status : Run.Status) (message : String) (now : Instant) :
    Except StoreError (Run × Store) :=
  if !status.isFinal then .error (.notFinal id status)
  else
    match s.run? id with
    | none => .error (.runNotFound id)
    | some run =>
      if run.statusName ≠ Run.Status.running.name then .error (.alreadyFinal id run.statusName)
      else
        let finished := run.finish status message now
        .ok (finished, { s with runs := s.runs.map fun r => if r.id = id then finished else r })

/-- The last runs of a rule, the newest first. -/
def listRuns (s : Store) (ruleId : String) (limit : Nat) : List Run :=
  let wanted := s.runs.filter (·.ruleId = ruleId)
  let sorted := wanted.mergeSort fun a b =>
    b.startedAt.isBefore a.startedAt || a.startedAt = b.startedAt && b.id ≤ a.id
  sorted.take limit

end Alerting.Store
