import Alerting.Proofs.Schedule.Pass
/-!
# Plans

The plan from one timetable to another writes and removes exactly what differs between the two, and
no plan that leads from the one to the other does with less.
-/

namespace Alerting.Schedule

/-! ## What a plan leads to -/

namespace Plan

def written (p : Plan) : List (String × String) :=
  p.update ++ p.add

def ids (p : Plan) : List String :=
  p.written.map (·.1) ++ p.remove

/-- The timetable that a plan leads to: what is to be removed is removed, and then the entries are
written. -/
def applyTo (p : Plan) (current : Timetable) : Timetable :=
  p.written.foldl (fun t e => t.insert e.1 e.2) (p.remove.foldl Dict.erase current)

theorem get?_applyTo_of_not_mem {p : Plan} {id : String} (h : id ∉ p.ids) (current : Timetable) :
    (p.applyTo current).get? id = current.get? id := by
  unfold ids at h
  rw [List.mem_append, not_or] at h
  unfold applyTo
  rw [Dict.get?_foldl_insert_of_not_mem h.1, Dict.get?_foldl_erase, if_neg h.2]

/-- A plan is about all rules on which the timetables that it leads from and to differ. -/
theorem mem_ids_of_get?_ne {p : Plan} {current wanted : Timetable} (h : p.applyTo current = wanted)
    {id : String} (hne : current.get? id ≠ wanted.get? id) : id ∈ p.ids := by
  by_contra hid
  rw [← h, get?_applyTo_of_not_mem hid] at hne
  exact hne rfl

end Plan

section Exact

variable (current wanted : Timetable) (id : String)

theorem mem_add_plan_iff :
    id ∈ (plan current wanted).add.map (·.1) ↔
      current.get? id = none ∧ (wanted.get? id).isSome = true := by
  rw [← Dict.isSome_lookup_iff, lookup_add_plan, Dict.contains]
  cases current.get? id <;> cases wanted.get? id <;> simp

theorem mem_update_plan_iff :
    id ∈ (plan current wanted).update.map (·.1) ↔
      ∃ old new, current.get? id = some old ∧ wanted.get? id = some new ∧ old ≠ new := by
  rw [← Dict.isSome_lookup_iff, lookup_update_plan]
  cases current.get? id <;> cases wanted.get? id <;> simp

theorem mem_ids_plan_iff :
    id ∈ (plan current wanted).ids ↔ current.get? id ≠ wanted.get? id := by
  unfold Plan.ids Plan.written
  rw [List.map_append, List.mem_append, List.mem_append, mem_add_plan_iff, mem_update_plan_iff,
    mem_remove_plan_iff]
  cases current.get? id <;> cases wanted.get? id <;> simp

theorem nodup_ids_plan : (plan current wanted).ids.Nodup := by
  have hwritten : ((plan current wanted).written.map (·.1)).Nodup := by
    unfold Plan.written
    rw [List.map_append]
    refine (nodup_update_plan current wanted).append (nodup_add_plan current wanted) ?_
    intro id hupdate hadd
    obtain ⟨old, new, hold, -, -⟩ := (mem_update_plan_iff current wanted id).mp hupdate
    obtain ⟨hnone, -⟩ := (mem_add_plan_iff current wanted id).mp hadd
    rw [hold] at hnone
    cases hnone
  have hremove : (plan current wanted).remove.Nodup := current.nodup_keys.filter _
  refine hwritten.append hremove ?_
  intro id hid hremoved
  obtain ⟨-, hnone⟩ := (mem_remove_plan_iff current wanted id).mp hremoved
  unfold Plan.written at hid
  rw [List.map_append, List.mem_append, mem_update_plan_iff, mem_add_plan_iff] at hid
  rcases hid with ⟨old, new, -, hnew, -⟩ | ⟨-, hsome⟩
  · rw [hnew] at hnone
    cases hnone
  · rw [hnone] at hsome
    cases hsome

theorem applyTo_plan : (plan current wanted).applyTo current = wanted := by
  have hwritten : ((plan current wanted).written.map (·.1)).Nodup :=
    (nodup_ids_plan current wanted).of_append_left
  apply Dict.ext_get?
  intro id
  unfold Plan.applyTo
  rw [Dict.get?_foldl_insert hwritten, Plan.written, List.lookup_append, lookup_update_plan,
    lookup_add_plan, Dict.get?_foldl_erase, Dict.contains]
  simp only [mem_remove_plan_iff]
  cases hcurrent : current.get? id with
  | none => cases wanted.get? id <;> simp
  | some old =>
      cases wanted.get? id with
      | none => simp
      | some new => by_cases hsame : old = new <;> simp [hsame, Option.filter]

theorem plan_eq_nil_iff :
    plan current wanted = { add := [], update := [], remove := [] } ↔ current = wanted := by
  constructor
  · intro hplan
    apply Dict.ext_get?
    intro id
    by_contra hne
    have hid := (mem_ids_plan_iff current wanted id).mpr hne
    rw [hplan] at hid
    exact List.not_mem_nil hid
  · rintro rfl
    have hids : (plan current current).ids = [] := by
      refine List.eq_nil_iff_forall_not_mem.mpr fun id hid => ?_
      exact (mem_ids_plan_iff current current id).mp hid rfl
    unfold Plan.ids Plan.written at hids
    simp only [List.append_eq_nil_iff, List.map_eq_nil_iff] at hids
    obtain ⟨⟨hupdate, hadd⟩, hremove⟩ := hids
    exact (Plan.mk.injEq ..).mpr ⟨hadd, hupdate, hremove⟩

end Exact

/-- The plan from one timetable to another is exact: it leads there, it is about every rule at most
once and about no rule that has the same expression in both, and it updates the rules that have
different ones.  It is minimal, too: it is empty exactly if the timetables are the same, and every
plan that leads from the one to the other is about all the rules that this one is about. -/
theorem exact_plan (current wanted : Timetable) :
    let p := plan current wanted
    p.ids.Nodup ∧
      p.applyTo current = wanted ∧
      (∀ id, id ∈ p.update.map (·.1) ↔
        ∃ old new, current.get? id = some old ∧ wanted.get? id = some new ∧ old ≠ new) ∧
      (∀ id cron, current.get? id = some cron → wanted.get? id = some cron → id ∉ p.ids) ∧
      (p = { add := [], update := [], remove := [] } ↔ current = wanted) ∧
      ∀ other : Plan, other.applyTo current = wanted → p.ids ⊆ other.ids := by
  intro p
  have hsame : ∀ id cron, current.get? id = some cron → wanted.get? id = some cron →
      id ∉ p.ids := by
    intro id cron hcurrent hwanted
    rw [mem_ids_plan_iff, hcurrent, hwanted]
    exact fun hne => hne rfl
  have hleast : ∀ other : Plan, other.applyTo current = wanted → p.ids ⊆ other.ids := by
    intro other hother id hid
    exact Plan.mem_ids_of_get?_ne hother ((mem_ids_plan_iff current wanted id).mp hid)
  exact ⟨nodup_ids_plan current wanted, applyTo_plan current wanted,
    mem_update_plan_iff current wanted, hsame, plan_eq_nil_iff current wanted, hleast⟩

end Alerting.Schedule
