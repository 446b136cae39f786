import Alerting.Proofs.Schedule.Pass
/-!
# The books of a pass

A pass reports what it has changed: its counts are those of the rules that have gained, lost or
changed their jobs.  A job that is wanted as it is stays the same job, and right after a pass there
is nothing left to do.
-/

namespace Alerting

namespace Schedule

/-! ## Jobs that stay -/

section Stay

variable (s : Schedule) {id : String}

theorem get?_foldl_drop_of_not_mem {ids : List String} (h : id ∉ ids) :
    (ids.foldl (fun s id => s.drop id) s).jobs.get? id = s.jobs.get? id := by
  rw [jobs_foldl_drop, Dict.get?_foldl_erase, if_neg h]

theorem get?_registerAll_of_not_mem {changes : List (String × String)}
    (h : id ∉ changes.map (·.1)) : (s.registerAll changes).jobs.get? id = s.jobs.get? id := by
  induction changes generalizing s with
  | nil => rfl
  | cons first rest ih =>
      rw [List.map_cons, List.mem_cons, not_or] at h
      exact (ih (s.register first.1 first.2) h.2).trans (Dict.get?_insert_of_ne s.jobs h.1 _)

end Stay

/-! ## What is done -/

theorem mem_valid_iff {changes : List (String × String)} (h : (changes.map (·.1)).Nodup)
    {id : String} :
    id ∈ (valid changes).map (·.1) ↔ ((changes.lookup id).filter isValid).isSome = true := by
  rw [← Dict.isSome_lookup_iff, lookup_valid h]

section Done

variable (s : Schedule) (wanted : Timetable)

theorem mem_added_iff (id : String) :
    id ∈ (valid (plan s.timetable wanted).add).map (·.1) ↔
      ((s.pass wanted).cron? id).isSome = true ∧ s.cron? id = none := by
  rw [mem_valid_iff (nodup_add_plan s.timetable wanted), lookup_add_plan, Dict.contains,
    get?_timetable, cron?_pass]
  cases wanted.get? id with
  | none => simp
  | some cron =>
      cases hcron : s.cron? id <;> cases hvalid : isValid cron <;>
        simp [Option.filter_some, hvalid]

theorem mem_updated_iff (id : String) :
    id ∈ (valid (plan s.timetable wanted).update).map (·.1) ↔
      (s.cron? id).isSome = true ∧ ((s.pass wanted).cron? id).isSome = true ∧
        (s.pass wanted).cron? id ≠ s.cron? id := by
  rw [mem_valid_iff (nodup_update_plan s.timetable wanted), lookup_update_plan, get?_timetable,
    cron?_pass]
  cases wanted.get? id with
  | none => simp
  | some cron =>
      cases hcron : s.cron? id with
      | none => simp
      | some old =>
          by_cases hsame : cron = old
          · simp [hsame]
          · have hother : old ≠ cron := Ne.symm hsame
            cases hvalid : isValid cron <;> simp [Option.filter_some, hvalid, hsame, hother]

theorem mem_removed_iff (id : String) :
    id ∈ (plan s.timetable wanted).remove ↔
      (s.cron? id).isSome = true ∧ (s.pass wanted).cron? id = none := by
  rw [mem_remove_plan_iff, get?_timetable, cron?_pass]
  cases wanted.get? id with
  | none => simp
  | some cron =>
      cases hcron : s.cron? id with
      | none => simp
      | some old => cases hvalid : isValid cron <;> simp [hvalid]

end Done

/-! ## The report -/

def passReport (s : Schedule) (wanted : Timetable) : Report :=
  (s.carryOut (plan s.timetable wanted)).1

section Report

variable (s : Schedule) (wanted : Timetable)

theorem contains_jobs (id : String) : s.jobs.contains id = (s.cron? id).isSome :=
  Option.isSome_map.symm

theorem added_passReport :
    (s.passReport wanted).added = (s.pass wanted).jobs.keys.countP (!s.jobs.contains ·) := by
  refine (List.length_map (·.1)).symm.trans (Dict.length_eq_countP_keys _ ?_ ?_)
  · exact nodup_valid (nodup_add_plan s.timetable wanted)
  · intro id
    rw [mem_added_iff, contains_jobs, contains_jobs]
    simp

theorem updated_passReport :
    (s.passReport wanted).updated = s.jobs.keys.countP fun id =>
      (s.pass wanted).jobs.contains id && (s.pass wanted).cron? id != s.cron? id := by
  refine (List.length_map (·.1)).symm.trans (Dict.length_eq_countP_keys _ ?_ ?_)
  · exact nodup_valid (nodup_update_plan s.timetable wanted)
  · intro id
    rw [mem_updated_iff, contains_jobs, contains_jobs]
    simp

theorem removed_passReport :
    (s.passReport wanted).removed = s.jobs.keys.countP (!(s.pass wanted).jobs.contains ·) := by
  refine Dict.length_eq_countP_keys _ ?_ ?_
  · exact s.timetable.nodup_keys.filter _
  · intro id
    rw [mem_removed_iff, contains_jobs, contains_jobs]
    simp

theorem total_passReport : (s.passReport wanted).total = (s.pass wanted).jobs.size := rfl

theorem total_add_removed :
    (s.passReport wanted).total + (s.passReport wanted).removed =
      s.jobs.size + (s.passReport wanted).added := by
  rw [total_passReport, removed_passReport, added_passReport]
  exact Dict.size_add_countP_keys _ _

end Report

/-- A job that is wanted as it is stays the same job. -/
theorem get?_pass_of_unchanged {s : Schedule} {wanted : Timetable} {id : String} {job : Job}
    (hjob : s.jobs.get? id = some job) (hwanted : wanted.get? id = some job.cron) :
    (s.pass wanted).jobs.get? id = some job := by
  have hcron : s.cron? id = some job.cron := by rw [cron?, hjob, Option.map_some]
  have hafter : (s.pass wanted).cron? id = s.cron? id := by
    rw [cron?_pass, hwanted, hcron, Option.bind_some, ite_self]
  have hadded : id ∉ (valid (plan s.timetable wanted).add).map (·.1) := by
    rw [mem_added_iff, hcron]
    simp
  have hupdated : id ∉ (valid (plan s.timetable wanted).update).map (·.1) := by
    rw [mem_updated_iff, hafter]
    simp
  have hremoved : id ∉ (plan s.timetable wanted).remove := by
    rw [mem_removed_iff, hafter, hcron]
    simp
  unfold pass carryOut
  dsimp only
  rw [get?_registerAll_of_not_mem _ hadded, get?_registerAll_of_not_mem _ hupdated,
    get?_foldl_drop_of_not_mem _ hremoved, hjob]

/-! ## Passes that find nothing to do -/

theorem cron?_pass_pass (s : Schedule) (wanted : Timetable) (id : String) :
    ((s.pass wanted).pass wanted).cron? id = (s.pass wanted).cron? id := by
  rw [cron?_pass, cron?_pass]
  cases wanted.get? id with
  | none => simp only [Option.bind_none]
  | some cron =>
      by_cases hvalid : isValid cron = true
      · simp only [Option.bind_some, if_pos hvalid]
      · simp only [Option.bind_some, if_neg hvalid]

/-- A pass that changes no expression leaves all jobs as they are. -/
theorem carryOut_of_cron?_pass_eq {s : Schedule} {wanted : Timetable}
    (h : ∀ id, (s.pass wanted).cron? id = s.cron? id) :
    s.carryOut (plan s.timetable wanted) = ({ total := s.jobs.size }, s) := by
  have hadded : (valid (plan s.timetable wanted).add).map (·.1) = [] := by
    refine List.eq_nil_iff_forall_not_mem.mpr fun id hid => ?_
    obtain ⟨hsome, hnone⟩ := (mem_added_iff s wanted id).mp hid
    rw [h, hnone] at hsome
    cases hsome
  have hupdated : (valid (plan s.timetable wanted).update).map (·.1) = [] := by
    refine List.eq_nil_iff_forall_not_mem.mpr fun id hid => ?_
    exact ((mem_updated_iff s wanted id).mp hid).2.2 (h id)
  have hremoved : (plan s.timetable wanted).remove = [] := by
    refine List.eq_nil_iff_forall_not_mem.mpr fun id hid => ?_
    obtain ⟨hsome, hnone⟩ := (mem_removed_iff s wanted id).mp hid
    rw [← h, hnone] at hsome
    cases hsome
  unfold carryOut
  rw [List.map_eq_nil_iff.mp hadded, List.map_eq_nil_iff.mp hupdated, hremoved]
  rfl

/-- The report of a pass counts the rules that have gained, lost or changed their jobs, so the books
balance; a job that is wanted as it is stays the same job, number included; and a second pass by the
same rules reports that nothing was done, and does nothing. -/
theorem books_of_reconcile (s : Schedule) (rules : List StoredRule) (usual : String) :
    let report := (s.reconcile rules usual).1
    let after := (s.reconcile rules usual).2
    report.added = after.jobs.keys.countP (!s.jobs.contains ·) ∧
      (report.updated = s.jobs.keys.countP fun id =>
        after.jobs.contains id && after.cron? id != s.cron? id) ∧
      report.removed = s.jobs.keys.countP (!after.jobs.contains ·) ∧
      report.total = after.jobs.size ∧
      report.total + report.removed = s.jobs.size + report.added ∧
      (∀ id job, s.jobs.get? id = some job → (desired rules usual).get? id = some job.cron →
        after.jobs.get? id = some job) ∧
      after.reconcile rules usual =
        ({ added := 0, updated := 0, removed := 0, total := report.total }, after) := by
  intro report after
  have hagain : after.reconcile rules usual = ({ total := after.jobs.size }, after) :=
    carryOut_of_cron?_pass_eq fun id => cron?_pass_pass s (desired rules usual) id
  exact ⟨added_passReport s _, updated_passReport s _, removed_passReport s _, rfl,
    total_add_removed s _, fun _ _ => get?_pass_of_unchanged, hagain⟩

/-- A rule that runs every day at nine, and one whose expression is none. -/
def dailyRules : List StoredRule :=
  [{ (default : StoredRule) with
      id := "morning", enabled := true
      config := "\x7b\"triggersGroup\":\x7b\"time\":" ++
        "\x7b\"cron\":\"0 0 9 * * *\",\"hour\":9,\"minute\":0\x7d\x7d\x7d" },
    { (default : StoredRule) with
      id := "noon", enabled := true
      config := "\x7b\"triggersGroup\":\x7b\"time\":" ++
        "\x7b\"cron\":\"twelve\",\"hour\":12,\"minute\":0\x7d\x7d\x7d" }]

/-- The jobs of the morning, of the noon before its expression became invalid, and of a rule that is
gone. -/
def dailyJobs : Schedule where
  jobs := .ofList
    [("morning", ⟨4, "0 0 9 * * *"⟩), ("noon", ⟨2, "0 0 12 * * *"⟩), ("night", ⟨5, "0 0 0 * * *"⟩)]
  next := 6

theorem books_of_reconcile_daily :
    let after := (dailyJobs.reconcile dailyRules "").2
    dailyJobs.jobs.get? "morning" = some ⟨4, "0 0 9 * * *"⟩ ∧
      (desired dailyRules "").get? "morning" = some "0 0 9 * * *" ∧
      after.jobs.get? "morning" = some ⟨4, "0 0 9 * * *"⟩ ∧
      (dailyJobs.reconcile dailyRules "").1 = { removed := 1, total := 2 } ∧
      after.reconcile dailyRules "" = ({ total := 2 }, after) := by
  have hjob : dailyJobs.jobs.get? "morning" = some ⟨4, "0 0 9 * * *"⟩ := by decide +kernel
  have hwanted : (desired dailyRules "").get? "morning" = some "0 0 9 * * *" := by
    decide +kernel
  have hreport : (dailyJobs.reconcile dailyRules "").1 = { removed := 1, total := 2 } := by
    decide +kernel
  obtain ⟨-, -, -, -, -, hkept, hagain⟩ := books_of_reconcile dailyJobs dailyRules ""
  rw [hreport] at hagain
  exact ⟨hjob, hwanted, hkept _ _ hjob hwanted, hreport, hagain⟩

end Schedule

end Alerting
