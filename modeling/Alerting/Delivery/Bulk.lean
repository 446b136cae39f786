import Alerting.Json.Value
/-!
# Bulk jobs

How far the sending of one message to many recipients is.  Jobs are kept by id and do not know of
each other.
-/

namespace Alerting.Delivery

inductive RecipientResult where
  | success (recipient : String)
  | failed (recipient error : String)
deriving DecidableEq, Repr, Inhabited

namespace RecipientResult

def recipient : RecipientResult → String
  | success recipient => recipient
  | failed recipient _ => recipient

def error? : RecipientResult → Option String
  | success _ => none
  | failed _ error => some error

def isSuccess : RecipientResult → Bool
  | success _ => true
  | failed .. => false

def toJson (r : RecipientResult) : Json :=
  .object
    [("recipient", .string r.recipient),
     ("status", .string (if r.isSuccess then "success" else "failed")),
     ("error", .ofString? r.error?)]

end RecipientResult

structure BulkReport where
  total : Nat
  success : Nat := 0
  failed : Nat := 0
  /-- The recipients that were not reached, in the order of sending. -/
  failures : List RecipientResult := []
  isDone : Bool := false
deriving DecidableEq, Repr, Inhabited

namespace BulkReport

def pending (r : BulkReport) : Nat :=
  r.total - (r.success + r.failed)

def record (r : BulkReport) (result : RecipientResult) : BulkReport :=
  if result.isSuccess then { r with success := r.success + 1 }
  else { r with failed := r.failed + 1, failures := r.failures ++ [result] }

def finish (r : BulkReport) : BulkReport :=
  { r with isDone := true }

def toJson (r : BulkReport) : Json :=
  .object
    [("total", .int r.total), ("success", .int r.success), ("failed", .int r.failed),
     ("failures", .array (r.failures.map RecipientResult.toJson)), ("done", .bool r.isDone)]

end BulkReport

abbrev BulkJobs := Dict BulkReport

namespace BulkJobs

def modify (jobs : BulkJobs) (id : String) (change : BulkReport → BulkReport) : BulkJobs :=
  match jobs.get? id with
  | some report => jobs.insert id (change report)
  | none => jobs

/-- Starts a job; an older one with this id is forgotten. -/
def start (jobs : BulkJobs) (id : String) (total : Nat) : BulkJobs :=
  jobs.insert id { total := total }

def record (jobs : BulkJobs) (id : String) (result : RecipientResult) : BulkJobs :=
  jobs.modify id (·.record result)

def finish (jobs : BulkJobs) (id : String) : BulkJobs :=
  jobs.modify id .finish

end BulkJobs

end Alerting.Delivery
