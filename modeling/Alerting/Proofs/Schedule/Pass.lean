import Alerting.Proofs.Dict
import Alerting.Schedule
/-!
# One pass over the jobs

What a pass leaves of the job of each rule.  A rule that should have a job has one for the wanted
expression if that is valid, and keeps the job that it had if it is not.
-/

namespace Alerting.Schedule

def cron? (s : Schedule) (id : String) : Option String :=
  (s.jobs.get? id).map (·.cron)

def isValid (cron : String) : Bool :=
  (Cron.ofText? cron).isSome

/-! ## Single jobs -/

section Jobs

variable (s : Schedule) (id other : String)

theorem get?_timetable : s.timetable.get? id = s.cron? id :=
  Dict.get?_ofList_map_value Job.cron s.jobs id

theorem cron?_register (cron : String) :
    (s.register id cron).cron? other = if other = id then some cron else s.cron? other := by
  unfold cron? register
  split
  · next heq =>
    rw [heq, Dict.get?_insert_self]
    rfl
  · next hne => rw [Dict.get?_insert_of_ne _ hne]

end Jobs

/-! ## Many jobs -/

theorem jobs_foldl_drop (s : Schedule) (ids : List String) :
    (ids.foldl (fun s id => s.drop id) s).jobs = ids.foldl Dict.erase s.jobs := by
  induction ids generalizing s with
  | nil => rfl
  | cons first rest ih => exact ih (s.drop first)

theorem cron?_foldl_drop (s : Schedule) (ids : List String) (id : String) :
    (ids.foldl (fun s id => s.drop id) s).cron? id = if id ∈ ids then none else s.cron? id := by
  unfold cron?
  rw [jobs_foldl_drop, Dict.get?_foldl_erase]
  split <;> rfl

theorem cron?_registerAll (s : Schedule) {changes : List (String × String)}
    (h : (changes.map (·.1)).Nodup) (id : String) :
    (s.registerAll changes).cron? id = (changes.lookup id).or (s.cron? id) := by
  induction changes generalizing s with
  | nil => rfl
  | cons first rest ih =>
      obtain ⟨first, cron⟩ := first
      rw [List.map_cons, List.nodup_cons] at h
      refine (ih (s.register first cron) h.2).trans ?_
      rw [cron?_register, List.lookup_cons]
      by_cases hfirst : id = first
      · rw [hfirst, Dict.lookup_eq_none_of_not_mem h.1, if_pos rfl, beq_self_eq_true]
        rfl
      · have hb : (id == first) = false := by simpa using hfirst
        rw [if_neg hfirst, hb]

/-! ## Plans -/

theorem lookup_valid {changes : List (String × String)} (h : (changes.map (·.1)).Nodup)
    (id : String) : (valid changes).lookup id = (changes.lookup id).filter isValid :=
  Dict.lookup_filter h _ id

theorem nodup_valid {changes : List (String × String)} (h : (changes.map (·.1)).Nodup) :
    ((valid changes).map (·.1)).Nodup :=
  h.sublist (List.filter_sublist.map _)

section Plans

variable (current wanted : Timetable) (id : String)

theorem nodup_update_plan : ((plan current wanted).update.map (·.1)).Nodup :=
  wanted.nodup_keys.sublist (List.filter_sublist.map _)

theorem nodup_add_plan : ((plan current wanted).add.map (·.1)).Nodup :=
  wanted.nodup_keys.sublist (List.filter_sublist.map _)

theorem mem_remove_plan_iff :
    id ∈ (plan current wanted).remove ↔
      (current.get? id).isSome = true ∧ wanted.get? id = none := by
  refine List.mem_filter.trans (and_congr Dict.mem_keys_iff ?_)
  simp [Dict.contains]

theorem lookup_update_plan :
    (plan current wanted).update.lookup id =
      (wanted.get? id).filter fun cron => (current.get? id).any (· ≠ cron) :=
  Dict.lookup_filter wanted.nodup_keys _ id

theorem lookup_add_plan :
    (plan current wanted).add.lookup id =
      (wanted.get? id).filter fun _ => !current.contains id :=
  Dict.lookup_filter wanted.nodup_keys _ id

end Plans

/-! ## The pass -/

def pass (s : Schedule) (wanted : Timetable) : Schedule :=
  (s.carryOut (plan s.timetable wanted)).2

/-- The job of a rule after a pass depends on what is wanted for it, and on the job it had. -/
theorem cron?_pass (s : Schedule) (wanted : Timetable) (id : String) :
    (s.pass wanted).cron? id =
      (wanted.get? id).bind fun cron => if isValid cron then some cron else s.cron? id := by
  unfold pass carryOut
  dsimp only
  rw [cron?_registerAll _ (nodup_valid (nodup_add_plan s.timetable wanted)),
    cron?_registerAll _ (nodup_valid (nodup_update_plan s.timetable wanted)),
    lookup_valid (nodup_add_plan s.timetable wanted),
    lookup_valid (nodup_update_plan s.timetable wanted), cron?_foldl_drop, lookup_add_plan,
    lookup_update_plan, Dict.contains]
  simp only [mem_remove_plan_iff, get?_timetable]
  cases hwanted : wanted.get? id with
  | none => cases hcron : s.cron? id <;> simp
  | some cron =>
      cases hcron : s.cron? id with
      | none => cases hvalid : isValid cron <;> simp [Option.filter_some, hvalid]
      | some old =>
          by_cases hsame : old = cron <;> cases hvalid : isValid cron <;>
            simp [Option.filter_some, hvalid, hsame]

theorem cron?_pass_eq_some_iff (s : Schedule) (wanted : Timetable) (id cron : String) :
    (s.pass wanted).cron? id = some cron ↔
      (wanted.get? id = some cron ∧ isValid cron = true) ∨
        ∃ invalid, wanted.get? id = some invalid ∧ isValid invalid = false ∧
          s.cron? id = some cron := by
  rw [cron?_pass]
  cases hwanted : wanted.get? id with
  | none => simp
  | some now =>
      rw [Option.bind_some]
      cases hvalid : isValid now with
      | true =>
          rw [if_pos rfl]
          constructor
          · intro hnow
            exact .inl ⟨hnow, Option.some.inj hnow ▸ hvalid⟩
          · rintro (⟨hnow, -⟩ | ⟨invalid, hnow, hinvalid, -⟩)
            · exact hnow
            · obtain rfl := Option.some.inj hnow
              cases hvalid.symm.trans hinvalid
      | false =>
          rw [if_neg Bool.false_ne_true]
          constructor
          · intro hcron
            exact .inr ⟨now, rfl, hvalid, hcron⟩
          · rintro (⟨hnow, hcron⟩ | ⟨-, -, -, hcron⟩)
            · obtain rfl := Option.some.inj hnow
              cases hvalid.symm.trans hcron
            · exact hcron

end Alerting.Schedule
