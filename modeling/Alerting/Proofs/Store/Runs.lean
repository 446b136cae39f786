import Alerting.Store.Runs
/-!
# The records of runs

A run that starts is put behind the earlier ones, and ending it changes no other.  A start is only
refused for an id that is taken; an end is refused unless it is one, and the run is there and
running.
-/

namespace Alerting.Store

variable {s : Store}

theorem startRun_of_fresh {id : String} (hfresh : ∀ r ∈ s.runs, r.id ≠ id) (ruleId : String)
    (origin : Run.Origin) (now : Instant) :
    s.startRun id ruleId origin now =
      .ok (.start id ruleId origin now,
        { s with runs := s.runs ++ [.start id ruleId origin now] }) := by
  have hany : s.runs.any (·.id = id) = false := by simpa using hfresh
  unfold startRun
  rw [hany]
  rfl

theorem of_startRun_eq_ok {id ruleId : String} {origin : Run.Origin} {now : Instant}
    {result : Run × Store} (h : s.startRun id ruleId origin now = .ok result) :
    (∀ r ∈ s.runs, r.id ≠ id) ∧
      result.2 = { s with runs := s.runs ++ [.start id ruleId origin now] } := by
  by_cases hfresh : ∀ r ∈ s.runs, r.id ≠ id
  · rw [startRun_of_fresh hfresh, Except.ok.injEq] at h
    exact ⟨hfresh, h ▸ rfl⟩
  · unfold startRun at h
    rw [if_pos (by simpa using hfresh)] at h
    cases h

theorem isOk_startRun_iff (id ruleId : String) (origin : Run.Origin) (now : Instant) :
    (s.startRun id ruleId origin now).isOk = true ↔ ∀ r ∈ s.runs, r.id ≠ id := by
  constructor
  · intro h
    cases hresult : s.startRun id ruleId origin now with
    | ok result => exact (of_startRun_eq_ok hresult).1
    | error e =>
        rw [hresult] at h
        cases h
  · intro hfresh
    rw [startRun_of_fresh hfresh]
    rfl

/-! ## Ends -/

variable {id : String} {status : Run.Status} {run : Run}

theorem finalizeRun_of_not_final (hfinal : status.isFinal = false) (message : String)
    (now : Instant) : s.finalizeRun id status message now = .error (.notFinal id status) := by
  unfold finalizeRun
  rw [hfinal]
  rfl

theorem finalizeRun_of_unknown (hfinal : status.isFinal = true) (hrun : s.run? id = none)
    (message : String) (now : Instant) :
    s.finalizeRun id status message now = .error (.runNotFound id) := by
  unfold finalizeRun
  rw [hfinal, hrun]
  rfl

theorem finalizeRun_of_over (hfinal : status.isFinal = true) (hrun : s.run? id = some run)
    (hover : run.statusName ≠ Run.Status.running.name) (message : String) (now : Instant) :
    s.finalizeRun id status message now = .error (.alreadyFinal id run.statusName) := by
  unfold finalizeRun
  rw [hfinal, hrun]
  exact if_pos hover

theorem finalizeRun_of_running (hfinal : status.isFinal = true) (hrun : s.run? id = some run)
    (hrunning : run.statusName = Run.Status.running.name) (message : String) (now : Instant) :
    s.finalizeRun id status message now =
      .ok (run.finish status message now,
        { s with runs := s.runs.map fun r =>
            if r.id = id then run.finish status message now else r }) := by
  unfold finalizeRun
  rw [hfinal, hrun]
  exact if_neg (not_not_intro hrunning)

theorem of_finalizeRun_eq_ok {message : String} {now : Instant} {result : Run × Store}
    (h : s.finalizeRun id status message now = .ok result) :
    status.isFinal = true ∧ ∃ run, s.run? id = some run ∧
      run.statusName = Run.Status.running.name ∧
      result.2 = { s with
        runs := s.runs.map fun r => if r.id = id then run.finish status message now else r } := by
  cases hfinal : status.isFinal with
  | false =>
      rw [finalizeRun_of_not_final hfinal] at h
      cases h
  | true =>
      cases hrun : s.run? id with
      | none =>
          rw [finalizeRun_of_unknown hfinal hrun] at h
          cases h
      | some run =>
          by_cases hrunning : run.statusName = Run.Status.running.name
          · rw [finalizeRun_of_running hfinal hrun hrunning, Except.ok.injEq] at h
            exact ⟨rfl, run, rfl, hrunning, h ▸ rfl⟩
          · rw [finalizeRun_of_over hfinal hrun hrunning] at h
            cases h

variable {earlier : List Run}

theorem run?_concat (hruns : s.runs = earlier ++ [run]) (hfresh : ∀ r ∈ earlier, r.id ≠ run.id) :
    s.run? run.id = some run := by
  unfold run?
  rw [hruns, List.find?_append]
  have hearlier : earlier.find? (·.id = run.id) = none := by simpa using hfresh
  simp [hearlier]

theorem finalizeRun_concat (hruns : s.runs = earlier ++ [run])
    (hfresh : ∀ r ∈ earlier, r.id ≠ run.id) (hrunning : run.statusName = Run.Status.running.name)
    {status : Run.Status} (hfinal : status.isFinal = true) (message : String) (now : Instant) :
    s.finalizeRun run.id status message now =
      .ok (run.finish status message now,
        { s with runs := earlier ++ [run.finish status message now] }) := by
  have hmap : (s.runs.map fun r => if r.id = run.id then run.finish status message now else r) =
      earlier ++ [run.finish status message now] := by
    rw [hruns, List.map_append, List.map_singleton, if_pos rfl]
    congr 1
    exact (List.map_congr_left fun r hr => if_neg (hfresh r hr)).trans (List.map_id' earlier)
  rw [finalizeRun_of_running hfinal (run?_concat hruns hfresh) hrunning, hmap]

end Alerting.Store
