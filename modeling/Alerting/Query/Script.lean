import Alerting.Query.Result
/-!
# Scripted answers

A script stands in for a query engine where the answers are known beforehand.  It answers requests
of each kind in turn, and remembers what it was asked.
-/

namespace Alerting.Query

structure Script where
  /-- The answers to flat aggregations that are still to come. -/
  aggregates : List Answer := []
  /-- The answers to cross tables that are still to come. -/
  pivots : List Answer := []
  /-- The requests so far, the latest first. -/
  asked : List Request := []
deriving Inhabited

def Request.toJson : Request → Json
  | .aggregate a => .object [("call", .string "aggregate"), ("request", a.toJson)]
  | .pivot p => .object [("call", .string "pivot"), ("request", p.toJson)]

namespace Script

/-- The next of some answers; an engine without one fails. -/
def next (answers : List Answer) : Answer :=
  answers.head?.getD (.error (.ofMessage "no scripted response"))

def answer (q : Request) (s : Script) : Answer × Script :=
  match q with
  | .aggregate _ =>
    (next s.aggregates, { s with aggregates := s.aggregates.tail, asked := q :: s.asked })
  | .pivot _ => (next s.pivots, { s with pivots := s.pivots.tail, asked := q :: s.asked })

def callsJson (s : Script) : Json :=
  .array (s.asked.reverse.map Request.toJson)

end Script

end Alerting.Query
