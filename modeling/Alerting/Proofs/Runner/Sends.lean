import Alerting.Proofs.Runner.Record
import Alerting.Server.Command
/-!
# What a run sends

A run that fires hands over one message for each action, in their order, to the recipients of the
action; whatever comes of one send, the next one is tried.  Nothing else that is done with a rule
sends anything.
-/

namespace Alerting

open Delivery Rule

def Rule.Action.target : Action → Channel × List String
  | .email recipients _ => (.email, recipients)
  | .sms recipients _ => (.sms, recipients)

namespace Runner

/-- A message that was handed over, and what came of it. -/
structure Sent where
  channel : Channel
  recipients : List String
  outcome : SendOutcome

namespace Sent

def target (x : Sent) : Channel × List String :=
  (x.channel, x.recipients)

def IsSuccess (x : Sent) : Prop :=
  x.outcome.isOk = true ∧ x.outcome.error = none

def report (x : Sent) : ActionReport :=
  ⟨x.channel, x.recipients.length, x.outcome⟩

theorem isOk_report (x : Sent) : x.report.isOk = true ↔ x.IsSuccess := by
  unfold ActionReport.isOk IsSuccess
  rw [Bool.and_eq_true, Option.isNone_iff_eq_none]
  rfl

def ofExchange? : (n : Need) × n.Reply → Option Sent
  | ⟨.sendEmail mail, outcome⟩ => some ⟨.email, mail.recipients, outcome⟩
  | ⟨.sendSms recipients _, outcome⟩ => some ⟨.sms, recipients, outcome⟩
  | _ => none

end Sent

def Need.IsSend : Need → Prop
  | .sendEmail _ => True
  | .sendSms .. => True
  | _ => False

section Sends

variable {σ α β : Type} (people : (n : Need) → σ → n.Reply × σ)

def sends (d : Running α) (s : σ) : List Sent :=
  (d.exchanges people s).filterMap Sent.ofExchange?

@[simp] theorem sends_pure (a : α) (s : σ) : sends people (pure a) s = [] := rfl

theorem sends_seq (d : Running α) (f : α → Running β) (s : σ) :
    sends people (d >>= f) s =
      sends people d s ++ sends people (f (d.run people s).1) (d.run people s).2 := by
  unfold sends
  rw [Dialogue.exchanges_seq, List.filterMap_append]

/-- What is seen of the sends only is not seen of what sends nothing. -/
theorem filterMap_exchanges_eq_nil {view : (n : Need) × n.Reply → Option β}
    (hview : ∀ e, ¬e.1.IsSend → view e = none) {d : Running α} (h : d.Asks (¬·.IsSend)) (s : σ) :
    (d.exchanges people s).filterMap view = [] :=
  List.filterMap_eq_nil_iff.mpr fun e he => hview e (h.of_mem_exchanges he)

theorem Sent.ofExchange?_eq_none (e : (n : Need) × n.Reply) (h : ¬e.1.IsSend) :
    Sent.ofExchange? e = none := by
  obtain ⟨n, reply⟩ := e
  cases n with
  | sendEmail mail => exact absurd trivial h
  | sendSms recipients message => exact absurd trivial h
  | _ => rfl

theorem sends_eq_nil {d : Running α} (h : d.Asks (¬·.IsSend)) (s : σ) : sends people d s = [] :=
  filterMap_exchanges_eq_nil people Sent.ofExchange?_eq_none h s

theorem sends_make (d : Making α) (s : σ) : sends people (make d) s = [] :=
  sends_eq_nil people (Dialogue.asks_embed d fun _ => id) s

/-! ## Actions -/

variable (rule : StoredRule) (m : Message)

theorem sends_carryOut (action : Action) (s : σ) :
    ∃ x : Sent, x.target = action.target ∧ sends people (carryOut rule m action) s = [x] ∧
      ((carryOut rule m action).run people s).1 = x.report := by
  cases action with
  | email recipients subject => exact ⟨⟨.email, recipients, _⟩, rfl, rfl, rfl⟩
  | sms recipients message => exact ⟨⟨.sms, recipients, _⟩, rfl, rfl, rfl⟩

/-- There is one send for each action, and the reports are about these. -/
theorem sends_carryOutAll (actions : List Action) (s : σ) :
    (sends people (carryOutAll rule m actions) s).map Sent.target = actions.map Action.target ∧
      ((carryOutAll rule m actions).run people s).1 =
        (sends people (carryOutAll rule m actions) s).map Sent.report := by
  induction actions generalizing s with
  | nil => exact ⟨rfl, rfl⟩
  | cons action rest ih =>
      obtain ⟨x, htarget, hsends, hreport⟩ := sends_carryOut people rule m action s
      obtain ⟨ihtarget, ihreport⟩ := ih ((carryOut rule m action).run people s).2
      rw [carryOutAll, sends_seq, sends_seq, sends_pure, List.append_nil, hsends,
        Dialogue.run_seq, Dialogue.run_seq, hreport, ihreport]
      constructor
      · rw [List.singleton_append, List.map_cons, List.map_cons, htarget, ihtarget]
      · rfl

/-! ## Runs -/

def evaluateNow (config : Config) (force : Bool) : Running Evaluation := do
  make (Making.ofAsking (config.evaluate (← need .localTime) force))

def firedHead (kpi : Option Float) : String :=
  match kpi with
  | some x => "Fired (kpi " ++ Numeric.groupedFigure x ++ ")"
  | none => "Fired"

theorem isOk_ofReports (kpi : Option Float) (sent : List Sent) :
    (RunOutcome.ofReports kpi (sent.map Sent.report)).isOk = true ↔ ∀ x ∈ sent, x.IsSuccess := by
  unfold RunOutcome.ofReports
  cases sent with
  | nil => simp
  | cons x rest =>
      change ((x :: rest).map Sent.report).all (·.isOk) = true ↔ _
      rw [List.all_eq_true, List.forall_mem_map]
      simp only [Sent.isOk_report]

theorem message_ofReports (kpi : Option Float) (sent : List Sent) :
    (RunOutcome.ofReports kpi (sent.map Sent.report)).message =
      if sent = [] then firedHead kpi ++ "; no actions configured"
      else firedHead kpi ++ ": " ++ "; ".intercalate (sent.map (·.report.text)) := by
  unfold RunOutcome.ofReports
  cases sent with
  | nil => rfl
  | cons x rest =>
      rw [if_neg (List.cons_ne_nil x rest), List.map_map]
      rfl

theorem execute_of_ok {rule : StoredRule} {config : Config}
    (h : Config.ofText? rule.config = .ok config) (force : Bool) (camera : Option Shot) :
    execute rule force camera = do
      let evaluation ← evaluateNow config force
      if evaluation.isFired then
        let m ← make (Message.make config evaluation camera)
        let reports ← carryOutAll rule m config.actions
        return (.fired, .ok (.ofReports evaluation.kpi reports))
      else return (.notFired, .ok .notFired) := by
  unfold execute evaluateNow
  rw [h]
  simp only [bind_assoc]

theorem sends_evaluateNow (config : Config) (force : Bool) (s : σ) :
    sends people (evaluateNow config force) s = [] := by
  apply sends_eq_nil
  exact (Dialogue.asks_put id).bind fun _ => Dialogue.asks_embed _ fun _ => id

theorem sends_execute_of_ok {rule : StoredRule} {config : Config}
    (h : Config.ofText? rule.config = .ok config) (force : Bool) (camera : Option Shot) (s : σ) :
    let evaluation := ((evaluateNow config force).run people s).1
    let sent := sends people (execute rule force camera) s
    if evaluation.isFired then
      sent.map Sent.target = config.actions.map Action.target ∧
        ((execute rule force camera).run people s).1.2 =
          .ok (.ofReports evaluation.kpi (sent.map Sent.report))
    else sent = [] := by
  rw [execute_of_ok h]
  dsimp only
  rw [sends_seq, sends_evaluateNow, List.nil_append, Dialogue.run_seq]
  -- what is sent is what the actions send, if the run gets as far as that
  by_cases hfired : ((evaluateNow config force).run people s).1.isFired = true
  · simp only [if_pos hfired]
    rw [sends_seq, sends_make, List.nil_append, sends_seq, sends_pure, List.append_nil,
      Dialogue.run_seq, Dialogue.run_seq]
    obtain ⟨htargets, hreports⟩ := sends_carryOutAll people rule _ config.actions _
    refine ⟨htargets, ?_⟩
    rw [hreports]
    rfl
  · simp only [if_neg hfired]
    rfl

theorem asks_conclude (store : Store) (runId ruleId : String) (outcome : RunOutcome) :
    (conclude store runId ruleId outcome).Asks (¬·.IsSend) :=
  (Dialogue.asks_put id).bind fun _ => (Dialogue.asks_put id).bind fun _ => Dialogue.asks_pure _

/-- What a run sends is what its work sends. -/
theorem filterMap_exchanges_run {view : (n : Need) × n.Reply → Option β}
    (hview : ∀ e, ¬e.1.IsSend → view e = none) {runner : Runner} {rule : StoredRule} {s : σ}
    (hfresh : ∀ r ∈ runner.store.runs, r.id ≠ (people .freshId s).1) (force : Bool)
    (origin : Run.Origin) (camera : Option Shot) :
    ((runner.run rule force origin camera).exchanges people s).filterMap view =
      ((execute rule force camera).exchanges people
        (people .instant (people .freshId s).2).2).filterMap view := by
  have hneed : ∀ (n : Need) (s : σ), ¬n.IsSend →
      ((need n).exchanges people s).filterMap view = [] :=
    fun n s h => filterMap_exchanges_eq_nil people hview (Dialogue.asks_put h) s
  have hconclude := fun store runId ruleId outcome s => filterMap_exchanges_eq_nil people hview
    (asks_conclude store runId ruleId outcome) s
  unfold Runner.run
  rw [Dialogue.exchanges_seq, List.filterMap_append, hneed _ _ id, List.nil_append, run_need,
    Dialogue.exchanges_seq, List.filterMap_append, hneed _ _ id, List.nil_append, run_need,
    Store.startRun_of_fresh hfresh]
  dsimp only
  rw [Dialogue.exchanges_seq, List.filterMap_append, Dialogue.exchanges_seq, List.filterMap_append,
    hconclude, List.nil_append]
  exact List.append_nil _

theorem sends_run {runner : Runner} {rule : StoredRule} {s : σ}
    (hfresh : ∀ r ∈ runner.store.runs, r.id ≠ (people .freshId s).1) (force : Bool)
    (origin : Run.Origin) (camera : Option Shot) :
    sends people (runner.run rule force origin camera) s =
      sends people (execute rule force camera) (people .instant (people .freshId s).2).2 :=
  filterMap_exchanges_run people Sent.ofExchange?_eq_none hfresh force origin camera

end Sends

end Runner

/-! ## Previews -/

namespace Server

open Dialogue

/-- Whether a need leaves what is kept as it is, and is not that of a mail. -/
def Need.IsHarmless : Need → Prop
  | .saveStore .. => False
  | .transmit .. => False
  | _ => True

theorem asks_lift {α : Type} {kind : Need → Prop} {d : Serving α} (hd : d.Asks kind) :
    (liftM d : Commanding α).run.Asks kind :=
  hd.bind fun _ => trivial

theorem asks_commanding_bind {α β : Type} {kind : Need → Prop} {d : Commanding α}
    {f : α → Commanding β} (hd : d.run.Asks kind) (hf : ∀ a, (f a).run.Asks kind) :
    (d >>= f).run.Asks kind := by
  rw [ExceptT.run_bind]
  apply hd.bind
  intro result
  cases result with
  | ok a => exact hf a
  | error e => exact asks_pure _

theorem asks_inputText (file : InputFile) (path : String) :
    (inputText file path).run.Asks Need.IsHarmless := by
  apply asks_commanding_bind (asks_lift (asks_put trivial))
  intro answer
  cases answer <;> exact trivial

theorem asks_loadConfig (path : String) : (loadConfig path).run.Asks Need.IsHarmless := by
  apply asks_commanding_bind (asks_inputText _ _)
  intro text
  split <;> exact trivial

theorem asks_readJson {α : Type} (file : InputFile) (read : Json.Reader α) (path : String) :
    (readJson file read path).run.Asks Need.IsHarmless := by
  apply asks_commanding_bind (asks_inputText _ _)
  intro text
  split <;> exact trivial

theorem asks_openStore (config : Config) : (openStore config).run.Asks Need.IsHarmless := by
  apply asks_commanding_bind (asks_lift (asks_put trivial))
  intro answer
  cases answer <;> exact trivial

theorem asks_answerMaterial (config : Config) (m : Material) :
    (answerMaterial config m).Asks Need.IsHarmless := by
  cases m with
  | query request => exact asks_embed _ fun _ => trivial
  | capture widget shot => exact asks_embed _ fun _ => trivial

theorem asks_preview (configPath rulePath : String) :
    (preview configPath rulePath).run.Asks Need.IsHarmless := by
  apply asks_commanding_bind (asks_loadConfig _)
  intro config
  apply asks_commanding_bind (asks_readJson _ _ _)
  intro rule
  apply asks_commanding_bind
  · exact asks_commanding_bind (asks_openStore config) fun _ => trivial
  intro _
  apply asks_commanding_bind (asks_lift (asks_put trivial))
  intro now
  apply asks_commanding_bind
  · apply asks_lift
    apply asks_relay
    intro m _
    exact (asks_answerMaterial config m).bind fun _ => asks_pure _
  intro p
  exact asks_lift (asks_put trivial)

end Server

namespace Runner

/-- A run sends exactly if its configuration can be read and the evaluation fires: then there is one
send for each action, in their order and whatever came of the others, and the run is a success if
all of them are.  A preview only asks for material, and leaves what is kept as it is. -/
theorem sends_of_run {σ : Type} (people : (n : Need) → σ → n.Reply × σ) (runner : Runner)
    (rule : StoredRule) (s : σ) (hfresh : ∀ r ∈ runner.store.runs, r.id ≠ (people .freshId s).1)
    (force : Bool) (origin : Run.Origin) (camera : Option Shot) :
    let course := (runner.run rule force origin camera).run people s
    let sent := sends people (runner.run rule force origin camera) s
    (∀ fault, Config.ofText? rule.config = .error fault → sent = []) ∧
      (∀ config, Config.ofText? rule.config = .ok config →
        let started := (people .instant (people .freshId s).2).2
        let evaluation := ((evaluateNow config force).run people started).1
        (evaluation.isFired = false → sent = []) ∧
        (evaluation.isFired = true →
          sent.map Sent.target = config.actions.map Action.target ∧
          ∃ outcome, course.1.1 = .ok outcome ∧
            (outcome.isOk = true ↔ ∀ x ∈ sent, x.IsSuccess) ∧
            outcome.message =
              if sent = [] then firedHead evaluation.kpi ++ "; no actions configured"
              else firedHead evaluation.kpi ++ ": " ++
                "; ".intercalate (sent.map (·.report.text)))) ∧
      (∀ config now, (make (Preview.make config now camera)).Asks fun n => ∃ m, n = .material m) ∧
      ∀ configPath rulePath,
        (Server.preview configPath rulePath).run.Asks Server.Need.IsHarmless := by
  intro course sent
  have hsent : sent = sends people (execute rule force camera)
    (people .instant (people .freshId s).2).2 := sends_run people hfresh force origin camera
  have hreturned : course.1.1 = report origin _ :=
    congrArg (·.1.1) (run_run people runner rule hfresh force origin camera)
  refine ⟨?_, ?_, ?_, Server.asks_preview⟩
  · intro fault hfault
    rw [hsent, execute_of_error hfault]
    rfl
  · intro config hconfig started evaluation
    have hwork := sends_execute_of_ok people hconfig force camera started
    dsimp only at hwork
    rw [← hsent] at hwork
    constructor
    · intro hfired
      rwa [if_neg (by rw [hfired]; exact Bool.false_ne_true)] at hwork
    · intro hfired
      rw [if_pos hfired] at hwork
      obtain ⟨htargets, houtcome⟩ := hwork
      rw [hreturned, houtcome]
      refine ⟨htargets, _, ?_, isOk_ofReports _ _, message_ofReports _ _⟩
      cases origin <;> rfl
  · exact fun config now => Dialogue.asks_embed _ fun m => ⟨m, rfl⟩

/-- The mail between two short messages fails, and so the run. -/
theorem sends_of_run_reminder :
    (∀ r ∈ busyRunner.store.runs, r.id ≠ (switchboard .freshId 2).1) ∧
      let run := busyRunner.run reminder false .manual none
      let sent := sends switchboard run 2
      sent.map Sent.target =
          [(.sms, ["1"]), (.email, ["a@example.com"]), (.sms, ["2", "3"])] ∧
        sent.map Sent.outcome =
          [⟨true, none⟩, ⟨false, some "Connection refused"⟩, ⟨true, none⟩] ∧
        ∃ outcome, (run.run switchboard 2).1.1 = .ok outcome ∧ outcome.isOk = false ∧
          outcome.message = "Fired" ++ ": " ++ "; ".intercalate (sent.map (·.report.text)) := by
  have hfresh : ∀ r ∈ busyRunner.store.runs, r.id ≠ (switchboard .freshId 2).1 := by
    decide
  have hread : (Config.ofText? reminder.config).toOption.map (fun config =>
      let started := (switchboard .instant (switchboard .freshId 2).2).2
      let found := ((evaluateNow config false).run switchboard started).1
      (config.actions, found.isFired, found.kpi)) =
        some ([.sms ["1"] "", .email ["a@example.com"] "", .sms ["2", "3"] ""], true, none) := by
    decide +kernel
  have houtcomes : (sends switchboard (busyRunner.run reminder false .manual none) 2).map
      Sent.outcome = [⟨true, none⟩, ⟨false, some "Connection refused"⟩, ⟨true, none⟩] := by
    decide +kernel
  obtain ⟨-, hsends, -, -⟩ :=
    sends_of_run switchboard busyRunner reminder 2 hfresh false .manual none
  refine ⟨hfresh, ?_⟩
  dsimp only at hsends ⊢
  generalize sends switchboard (busyRunner.run reminder false .manual none) 2 = sent at *
  cases hconfig : Config.ofText? reminder.config with
  | error fault =>
      rw [hconfig] at hread
      cases hread
  | ok config =>
      rw [hconfig] at hread
      obtain ⟨hactions, hfired, hkpi⟩ := by
        simpa only [Prod.mk.injEq] using Option.some.inj hread
      obtain ⟨htargets, outcome, hreturned, hiff, hmessage⟩ := (hsends config hconfig).2 hfired
      rw [hactions] at htargets
      have hne : sent ≠ [] := by
        rintro rfl
        cases houtcomes
      have hfailed : ¬∀ x ∈ sent, x.IsSuccess := by
        intro hall
        have hrefused : ⟨false, some "Connection refused"⟩ ∈ sent.map Sent.outcome := by
          rw [houtcomes]
          decide
        obtain ⟨x, hx, hout⟩ := List.mem_map.mp hrefused
        have hok := (hall x hx).1
        rw [hout] at hok
        cases hok
      rw [if_neg hne, hkpi] at hmessage
      exact ⟨htargets, houtcomes, outcome, hreturned,
        Bool.eq_false_iff.mpr fun hok => hfailed (hiff.mp hok), hmessage⟩

end Runner

end Alerting
