import Alerting.Proofs.Runner.Record
import Alerting.Proofs.Schedule.Pass
import Alerting.Proofs.Store.History
import Alerting.Server.Command
import Mathlib.Data.List.Induction
/-!
# The history of jobs

Rules are added, changed and removed, and now and then a pass brings the jobs in line with them.
Which jobs there are depends only on what was wanted at each pass: a rule that should run by a valid
expression runs by it, and a rule that should run by an invalid one goes on as it did before, so an
earlier expression of it can outlast any number of passes.
-/

namespace Alerting

namespace Schedule

/-! ## Passes -/

def passAll (s : Schedule) (tables : List Timetable) : Schedule :=
  tables.foldl pass s

/-- The expression was wanted for the rule and valid at one of the passes, and every expression that
was wanted for it at a later one was invalid. -/
def Outlasts (tables : List Timetable) (id cron : String) : Prop :=
  ∃ before wanted after, tables = before ++ wanted :: after ∧
    wanted.get? id = some cron ∧ isValid cron = true ∧
      ∀ later ∈ after, ∃ invalid, later.get? id = some invalid ∧ isValid invalid = false

theorem not_outlasts_nil (id cron : String) : ¬Outlasts [] id cron := by
  rintro ⟨before, wanted, after, htables, -⟩
  exact List.append_ne_nil_of_right_ne_nil before (List.cons_ne_nil wanted after) htables.symm

section Concat

variable (tables : List Timetable) {wanted : Timetable} {id cron : String}

theorem outlasts_concat_of_valid (hwanted : wanted.get? id = some cron)
    (hvalid : isValid cron = true) : Outlasts (tables ++ [wanted]) id cron :=
  ⟨tables, wanted, [], rfl, hwanted, hvalid, nofun⟩

variable {tables}

theorem Outlasts.concat (h : Outlasts tables id cron) {invalid : String}
    (hwanted : wanted.get? id = some invalid) (hinvalid : isValid invalid = false) :
    Outlasts (tables ++ [wanted]) id cron := by
  obtain ⟨before, table, after, rfl, htable, hvalid, hafter⟩ := h
  refine ⟨before, table, after ++ [wanted], ?_, htable, hvalid, ?_⟩
  · rw [List.append_assoc, List.cons_append]
  · intro later hlater
    rcases List.mem_append.mp hlater with hlater | hlater
    · exact hafter later hlater
    · rw [List.mem_singleton.mp hlater]
      exact ⟨invalid, hwanted, hinvalid⟩

theorem outlasts_concat_iff :
    Outlasts (tables ++ [wanted]) id cron ↔
      (wanted.get? id = some cron ∧ isValid cron = true) ∨
        ∃ invalid, wanted.get? id = some invalid ∧ isValid invalid = false ∧
          Outlasts tables id cron := by
  constructor
  · rintro ⟨before, table, after, htables, htable, hvalid, hafter⟩
    -- the last pass is the one at which the expression was wanted, or a later one
    rcases List.eq_nil_or_concat after with rfl | ⟨between, last, rfl⟩
    · obtain ⟨-, hlast⟩ := List.append_inj' htables rfl
      rw [List.singleton_inj.mp hlast]
      exact .inl ⟨htable, hvalid⟩
    · rw [List.concat_eq_append, ← List.cons_append, ← List.append_assoc] at htables
      obtain ⟨hfirst, hlast⟩ := List.append_inj' htables rfl
      rw [List.concat_eq_append, ← hlast] at hafter
      obtain ⟨invalid, hwanted, hinvalid⟩ :=
        hafter wanted (List.mem_append_right _ (List.mem_singleton_self wanted))
      refine .inr ⟨invalid, hwanted, hinvalid, before, table, between, hfirst, htable, hvalid, ?_⟩
      intro later hlater
      exact hafter later (List.mem_append_left _ hlater)
  · rintro (⟨hwanted, hvalid⟩ | ⟨invalid, hwanted, hinvalid, h⟩)
    · exact outlasts_concat_of_valid tables hwanted hvalid
    · exact h.concat hwanted hinvalid

end Concat

theorem cron?_passAll_iff (tables : List Timetable) (id cron : String) :
    (passAll {} tables).cron? id = some cron ↔ Outlasts tables id cron := by
  induction tables using List.reverseRecOn with
  | nil => exact iff_of_false nofun (not_outlasts_nil id cron)
  | append_singleton tables wanted ih =>
      rw [outlasts_concat_iff, passAll, List.foldl_concat]
      simp only [← ih]
      exact cron?_pass_eq_some_iff _ wanted id cron

end Schedule

namespace Server

open Schedule

/-! ## Histories -/

inductive Event where
  | change (op : Store.Operation)
  | pass

namespace State

def wanted (server : State) : Timetable :=
  desired server.runner.store.enabledRules server.config.scheduling.defaultCron

def handle (server : State) : Event → State
  | .change op => { server with runner.store := server.runner.store.perform op }
  | .pass => server.reconcile.2

def handleAll (server : State) (events : List Event) : State :=
  events.foldl handle server

def wantedAtPasses (server : State) : List Event → List Timetable
  | [] => []
  | .change op :: rest => (server.handle (.change op)).wantedAtPasses rest
  | .pass :: rest => server.wanted :: (server.handle .pass).wantedAtPasses rest

theorem schedule_handleAll (server : State) (events : List Event) :
    (server.handleAll events).schedule =
      server.schedule.passAll (server.wantedAtPasses events) := by
  induction events generalizing server with
  | nil => rfl
  | cons event rest ih =>
      rw [handleAll, List.foldl_cons]
      refine (ih (server.handle event)).trans ?_
      cases event <;> rfl

/-- After a pass each rule that should run by a valid expression does so, and no other rule has a
job except one that should run by an invalid expression: that one keeps an earlier job.  So the jobs
are those that are wanted with a valid expression exactly if no earlier expression outlasts an
invalid one. -/
theorem jobs_of_history (server : State) (events : List Event) :
    let start := { server with schedule := {} }
    let passed := (start.handleAll events).reconcile.2
    (∀ id cron, passed.schedule.cron? id = some cron ↔
      (passed.wanted.get? id = some cron ∧ isValid cron = true) ∨
        ∃ invalid, passed.wanted.get? id = some invalid ∧ isValid invalid = false ∧
          Outlasts (start.wantedAtPasses events) id cron) ∧
      ((∀ id cron, passed.schedule.cron? id = some cron ↔
          passed.wanted.get? id = some cron ∧ isValid cron = true) ↔
        ∀ id invalid, passed.wanted.get? id = some invalid → isValid invalid = false →
          ∀ cron, ¬Outlasts (start.wantedAtPasses events) id cron) := by
  intro start passed
  have hcron : ∀ id cron, passed.schedule.cron? id = some cron ↔
      (passed.wanted.get? id = some cron ∧ isValid cron = true) ∨
        ∃ invalid, passed.wanted.get? id = some invalid ∧ isValid invalid = false ∧
          Outlasts (start.wantedAtPasses events) id cron := by
    intro id cron
    rw [← cron?_passAll_iff]
    refine (cron?_pass_eq_some_iff _ passed.wanted id cron).trans ?_
    rw [schedule_handleAll]
  refine ⟨hcron, ?_⟩
  constructor
  · intro hexact id invalid hwanted hinvalid cron houtlasts
    have hjob := (hcron id cron).mpr (.inr ⟨invalid, hwanted, hinvalid, houtlasts⟩)
    obtain ⟨hcurrent, hvalid⟩ := (hexact id cron).mp hjob
    obtain rfl := Option.some.inj (hcurrent.symm.trans hwanted)
    cases hvalid.symm.trans hinvalid
  · intro hnone id cron
    refine (hcron id cron).trans (or_iff_left ?_)
    rintro ⟨invalid, hwanted, hinvalid, houtlasts⟩
    exact hnone id invalid hwanted hinvalid cron houtlasts

def newServer : State where
  config := {}
  runner := Runner.newRunner

def everyMorning : NewRule where
  id := "morning"
  name := "Morning"
  kind := default
  enabled := true
  dashboardId := none
  widgetId := none
  config := "\x7b\"triggersGroup\":\x7b\"time\":" ++
    "\x7b\"cron\":\"0 0 9 * * *\",\"hour\":9,\"minute\":0\x7d\x7d\x7d"

def misspelling : RuleEdit where
  config := some <| "\x7b\"triggersGroup\":\x7b\"time\":" ++
    "\x7b\"cron\":\"nine\",\"hour\":9,\"minute\":0\x7d\x7d\x7d"

/-- A rule that was registered goes on running after its expression has become invalid. -/
theorem not_forall_cron?_eq_some_iff_wanted :
    ¬∀ (server : State) (events : List Event) (id cron : String),
      let passed := (State.handleAll { server with schedule := {} } events).reconcile.2
      passed.schedule.cron? id = some cron ↔
        passed.wanted.get? id = some cron ∧ isValid cron = true := by
  intro h
  let events : List Event :=
    [.change (.insertRule everyMorning default), .pass,
      .change (.updateRule everyMorning.id misspelling default)]
  have hjob : (newServer.handleAll events).reconcile.2.schedule.cron? everyMorning.id =
      some "0 0 9 * * *" := by
    decide +kernel
  have hwanted : (newServer.handleAll events).reconcile.2.wanted.get? everyMorning.id =
      some "nine" := by
    decide +kernel
  obtain ⟨hsame, -⟩ := (h newServer events everyMorning.id "0 0 9 * * *").mp hjob
  exact absurd (Option.some.inj (hsame.symm.trans hwanted)) (by decide)

end State

end Server

end Alerting
