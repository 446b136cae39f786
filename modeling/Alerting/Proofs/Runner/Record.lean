import Alerting.Proofs.Dialogue
import Alerting.Proofs.Store.Runs
import Alerting.Runner
/-!
# What is recorded of a run

Whatever becomes of a run, it leaves one record behind, says on its rule how it ended, and counts as
one evaluation.  Who started it only decides how an error is told to them.
-/

namespace Alerting

def Verdicts.number (v : Verdicts) : Verdict → Nat
  | .fired => v.fired
  | .notFired => v.notFired
  | .error => v.error

theorem Verdicts.number_count (v : Verdicts) (verdict other : Verdict) :
    (v.count verdict).number other = v.number other + if other = verdict then 1 else 0 := by
  cases verdict <;> cases other <;> rfl

namespace RunOutcome

theorem isFinal_status (o : RunOutcome) : o.status.isFinal = true := by
  unfold status
  split <;> rfl

end RunOutcome

namespace Runner

variable {σ : Type} (people : (n : Need) → σ → n.Reply × σ)

theorem run_need (n : Need) (s : σ) : (need n).run people s = people n s := rfl

def recordedIn (s : Store) (run : Run) (recorded : Instant) : Store :=
  { s with
    runs := s.runs ++ [run]
    rules := s.rules.map fun r =>
      if r.id = run.ruleId then
        { r with lastRunAt := some recorded, lastStatus := some run.message }
      else r }

theorem run_conclude {store : Store} (run : Run) (hfresh : ∀ r ∈ store.runs, r.id ≠ run.id)
    (hrunning : run.statusName = Run.Status.running.name) (outcome : RunOutcome) (s : σ) :
    let ended := people .instant s
    let recorded := people .instant ended.2
    (conclude { store with runs := store.runs ++ [run] } run.id run.ruleId outcome).run people s =
      (recordedIn store (run.finish outcome.status outcome.recorded ended.1) recorded.1,
        recorded.2) := by
  intro ended recorded
  have hfinalize := Store.finalizeRun_concat (s := { store with runs := store.runs ++ [run] })
    rfl hfresh hrunning outcome.isFinal_status outcome.recorded ended.1
  unfold conclude
  rw [Dialogue.run_seq, run_need]
  dsimp only
  rw [hfinalize]
  rfl

theorem run_run (runner : Runner) (rule : StoredRule) {s : σ}
    (hfresh : ∀ r ∈ runner.store.runs, r.id ≠ (people .freshId s).1) (force : Bool)
    (origin : Run.Origin) (camera : Option Shot) :
    let id := people .freshId s
    let started := people .instant id.2
    let work := (execute rule force camera).run people started.2
    let outcome := outcomeOf work.1.2
    let ended := people .instant work.2
    let recorded := people .instant ended.2
    let run := (Run.start id.1 rule.id origin started.1).finish outcome.status outcome.recorded
      ended.1
    (runner.run rule force origin camera).run people s =
      ((report origin work.1.2,
        ⟨recordedIn runner.store run recorded.1, runner.verdicts.count work.1.1⟩), recorded.2) := by
  intro id started work outcome ended recorded run
  let first := Run.start id.1 rule.id origin started.1
  have hstart : runner.store.startRun id.1 rule.id origin started.1 =
      .ok (first, { runner.store with runs := runner.store.runs ++ [first] }) :=
    Store.startRun_of_fresh hfresh rule.id origin started.1
  have hconclude : (conclude { runner.store with runs := runner.store.runs ++ [first] } id.1 rule.id
      outcome).run people work.2 = (recordedIn runner.store run recorded.1, recorded.2) :=
    run_conclude people first hfresh rfl outcome work.2
  unfold Runner.run
  rw [Dialogue.run_seq, show (need .freshId).run people s = id from rfl, Dialogue.run_seq,
    show (need .instant).run people id.2 = started from rfl, hstart]
  dsimp only
  rw [Dialogue.run_seq, show (execute rule force camera).run people started.2 = work from rfl,
    Dialogue.run_seq, hconclude]
  rfl

/-! ## Errors -/

theorem execute_of_error {rule : StoredRule} {fault : Json.Fault}
    (h : Rule.Config.ofText? rule.config = .error fault) (force : Bool) (camera : Option Shot) :
    execute rule force camera = return (.error, .error (.config fault)) := by
  unfold execute
  rw [h]

theorem run_execute_of_ok {rule : StoredRule} {config : Rule.Config}
    (h : Rule.Config.ofText? rule.config = .ok config) (force : Bool) (camera : Option Shot)
    (s : σ) : ∃ outcome, ((execute rule force camera).run people s).1.2 = .ok outcome := by
  unfold execute
  rw [h]
  dsimp only
  rw [Dialogue.run_seq, Dialogue.run_seq]
  split
  · rw [Dialogue.run_seq, Dialogue.run_seq]
    exact ⟨_, rfl⟩
  · exact ⟨_, rfl⟩

/-- What a run with an outcome leaves behind. -/
structure IsRecorded (before : Runner) (rule : StoredRule) (origin : Run.Origin)
    (outcome : RunOutcome) (after : Runner) : Prop where
  /-- There is one record more, and it says how the run ended. -/
  runs_eq : ∃ (id : String) (started ended : Instant),
    after.store.runs = before.store.runs ++
      [{ id := id
         ruleId := rule.id
         originName := origin.name
         startedAt := started
         finishedAt := some ended
         statusName := if outcome.isOk then "ok" else "failed"
         message := Text.truncate outcome.message 4000 }]
  /-- The rule says how its last run ended; nothing else about it changes, and no other rule. -/
  rules_eq : ∃ recorded : Instant,
    after.store.rules = before.store.rules.map fun r =>
      if r.id = rule.id then
        { r with
          lastRunAt := some recorded
          lastStatus := some (Text.truncate outcome.message 4000) }
      else r
  settings_eq : after.store = { before.store with
    runs := after.store.runs
    rules := after.store.rules }
  /-- One of the counts has grown by one. -/
  verdicts_eq : ∃ verdict, ∀ v,
    after.verdicts.number v = before.verdicts.number v + if v = verdict then 1 else 0

theorem isRecorded_recordedIn {runner : Runner} {rule : StoredRule} {origin : Run.Origin}
    (id : String) (started ended recorded : Instant) (outcome : RunOutcome) (verdict : Verdict) :
    IsRecorded runner rule origin outcome
      ⟨recordedIn runner.store ((Run.start id rule.id origin started).finish outcome.status
        outcome.recorded ended) recorded, runner.verdicts.count verdict⟩ where
  runs_eq := by
    refine ⟨id, started, ended, ?_⟩
    have hname : outcome.status.name = if outcome.isOk then "ok" else "failed" := by
      unfold RunOutcome.status
      cases outcome.isOk <;> rfl
    rw [← hname]
    rfl
  rules_eq := ⟨recorded, rfl⟩
  settings_eq := rfl
  verdicts_eq := ⟨verdict, fun v => runner.verdicts.number_count verdict v⟩

/-- A run is recorded in the same way whoever started it and whatever came of it.  An error is told
as such to someone who started the run by hand, and as an outcome otherwise; there is one exactly if
the configuration cannot be read.  A rule that is not there is not run at all. -/
theorem run_recorded (runner : Runner) (rule : StoredRule) (s : σ)
    (hfresh : ∀ r ∈ runner.store.runs, r.id ≠ (people .freshId s).1) (force : Bool)
    (camera : Option Shot) :
    (∃ outcome, ∀ origin,
      let course := (runner.run rule force origin camera).run people s
      IsRecorded runner rule origin outcome course.1.2 ∧
      (∀ config, Rule.Config.ofText? rule.config = .ok config → course.1.1 = .ok outcome) ∧
      ∀ fault, Rule.Config.ofText? rule.config = .error fault →
        outcome = ⟨false, (RunError.config fault).message⟩ ∧
        course.1.1 = if origin = .manual then .error (.config fault) else .ok outcome) ∧
      ∀ id origin, runner.store.rule? id = none →
        runner.runById id force origin camera = return (.error (.ruleNotFound id), runner) := by
  constructor
  · let work := (execute rule force camera).run people
      (people .instant (people .freshId s).2).2
    -- the work is done before anyone asks who started the run
    refine ⟨outcomeOf work.1.2, fun origin => ?_⟩
    intro course
    have hcourse := run_run people runner rule hfresh force origin camera
    have hafter : course.1.2 = _ := congrArg (·.1.2) hcourse
    have hreturned : course.1.1 = report origin work.1.2 := congrArg (·.1.1) hcourse
    rw [hafter, hreturned]
    refine ⟨isRecorded_recordedIn _ _ _ _ _ _, ?_, ?_⟩
    · intro config hconfig
      obtain ⟨outcome, hwork⟩ := run_execute_of_ok people hconfig force camera
        (people .instant (people .freshId s).2).2
      rw [show work.1.2 = .ok outcome from hwork]
      cases origin <;> rfl
    · intro fault hfault
      have hwork : work.1.2 = .error (.config fault) := by
        unfold work
        rw [execute_of_error hfault]
        rfl
      rw [hwork]
      cases origin <;> exact ⟨rfl, rfl⟩
  · intro id origin hrule
    unfold runById
    rw [hrule]

/-- People who take short messages only, and know nothing.  They remember how often they were asked
for the time, and name runs after it. -/
def switchboard : (n : Need) → Nat → n.Reply × Nat
  | .material (.query _), t => (.error (.ofMessage "offline"), t)
  | .material (.capture ..), t => (.error (.ofMessage "offline"), t)
  | .sendEmail _, t => (⟨false, some "Connection refused"⟩, t)
  | .sendSms .., t => (⟨true, none⟩, t)
  | .localTime, t => (default, t)
  | .instant, t => (default, t + 1)
  | .freshId, t => (toString t, t)

def newRunner : Runner :=
  { store := { key := ⟨List.replicate Secret.keyLength 0, List.length_replicate⟩ } }

def unreadable : StoredRule :=
  { (default : StoredRule) with id := "unreadable", name := "Unreadable", config := "" }

def reminder : StoredRule :=
  { (default : StoredRule) with
    id := "reminder"
    name := "Reminder"
    config := "\x7b\"triggersGroup\":\x7b\x7d,\"actions\":[" ++
      "\x7b\"type\":\"sms\",\"to\":\"1\"\x7d," ++
      "\x7b\"type\":\"email\",\"to\":\"a@example.com\"\x7d," ++
      "\x7b\"type\":\"sms\",\"to\":[\"2\",\"3\"]\x7d]\x7d" }

def busyRunner : Runner :=
  { newRunner with
    store := { newRunner.store with
      rules := [unreadable, reminder]
      runs := [(Run.start "1" "reminder" .scheduled default).finish .ok "Fired" default] }
    verdicts := { fired := 1 } }

theorem run_recorded_busyRunner :
    (∀ r ∈ busyRunner.store.runs, r.id ≠ (switchboard .freshId 2).1) ∧
      (∃ fault, Rule.Config.ofText? unreadable.config = .error fault ∧
        let course := (busyRunner.run unreadable false .manual none).run switchboard 2
        course.1.1 = .error (.config fault) ∧
          IsRecorded busyRunner unreadable .manual ⟨false, (RunError.config fault).message⟩
            course.1.2) ∧
      ∃ outcome,
        let course := (busyRunner.run reminder false .manual none).run switchboard 2
        course.1.1 = .ok outcome ∧
          outcome = ⟨false, "Fired: sms sent to 1 recipient(s); " ++
            "email failed: Connection refused; sms sent to 2 recipient(s)"⟩ ∧
          IsRecorded busyRunner reminder .manual outcome course.1.2 := by
  have hfresh : ∀ r ∈ busyRunner.store.runs, r.id ≠ (switchboard .freshId 2).1 := by
    decide
  refine ⟨hfresh, ?_, ?_⟩
  · obtain ⟨outcome, houtcome⟩ :=
      (run_recorded switchboard busyRunner unreadable 2 hfresh false none).1
    obtain ⟨hrecorded, -, herror⟩ := houtcome .manual
    have hunreadable : (Rule.Config.ofText? unreadable.config).toBool = false := by
      decide +kernel
    cases hconfig : Rule.Config.ofText? unreadable.config with
    | ok config =>
        rw [hconfig] at hunreadable
        cases hunreadable
    | error fault =>
        obtain ⟨rfl, hreturned⟩ := herror fault hconfig
        exact ⟨fault, rfl, hreturned, hrecorded⟩
  · obtain ⟨outcome, houtcome⟩ :=
      (run_recorded switchboard busyRunner reminder 2 hfresh false none).1
    obtain ⟨hrecorded, hok, -⟩ := houtcome .manual
    have hreadable : (Rule.Config.ofText? reminder.config).toBool = true := by
      decide +kernel
    cases hconfig : Rule.Config.ofText? reminder.config with
    | ok config =>
        have hreturned := hok config hconfig
        have hsaid : ((busyRunner.run reminder false .manual none).run switchboard 2).1.1.toOption =
            some ⟨false, "Fired: sms sent to 1 recipient(s); " ++
              "email failed: Connection refused; sms sent to 2 recipient(s)"⟩ := by
          decide +kernel
        rw [hreturned] at hsaid
        exact ⟨outcome, hreturned, Option.some.inj hsaid, hrecorded⟩
    | error fault =>
        rw [hconfig] at hreadable
        cases hreadable

end Runner

end Alerting
