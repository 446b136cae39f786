import Alerting.Proofs.Runner.Sends
import Mathlib.Data.List.Forall2
/-!
# Previews of runs

A preview asks for the same material as a forced run, in the same order.  So if both are told the
same, the evaluation is the same, and what the run hands over is what the preview shows.
-/

namespace Alerting

open Delivery Rule

namespace Runner

/-! ## Messages that are handed over -/

instance : DecidablePred Need.IsSend
  | .sendEmail _ => .isTrue trivial
  | .sendSms .. => .isTrue trivial
  | .material _ => .isFalse id
  | .localTime => .isFalse id
  | .instant => .isFalse id
  | .freshId => .isFalse id

def Need.short? : Need → Option String
  | sendSms _ message => some message
  | _ => none

def sendOf? (e : (n : Need) × n.Reply) : Option Need :=
  if e.1.IsSend then some e.1 else none

def handOver (rule : StoredRule) (m : Message) : Action → Need
  | .email recipients subject =>
    let template := if Text.isBlankText subject then rule.name else subject
    .sendEmail ⟨m.subject template, recipients, m.html, m.images⟩
  | .sms recipients text => .sendSms recipients (m.short text)

section Handed

variable {σ α β : Type} (people : (n : Need) → σ → n.Reply × σ)

def handed (d : Running α) (s : σ) : List Need :=
  (d.exchanges people s).filterMap sendOf?

theorem handed_seq (d : Running α) (f : α → Running β) (s : σ) :
    handed people (d >>= f) s =
      handed people d s ++ handed people (f (d.run people s).1) (d.run people s).2 := by
  unfold handed
  rw [Dialogue.exchanges_seq, List.filterMap_append]

theorem handed_eq_nil {d : Running α} (h : d.Asks (¬·.IsSend)) (s : σ) : handed people d s = [] :=
  filterMap_exchanges_eq_nil people (fun _ h => if_neg h) h s

theorem handed_carryOut (rule : StoredRule) (m : Message) (action : Action) (s : σ) :
    handed people (carryOut rule m action) s = [handOver rule m action] := by
  cases action <;> rfl

theorem handed_carryOutAll (rule : StoredRule) (m : Message) (actions : List Action) (s : σ) :
    handed people (carryOutAll rule m actions) s = actions.map (handOver rule m) := by
  induction actions generalizing s with
  | nil => rfl
  | cons action rest ih =>
      rw [carryOutAll, handed_seq, handed_carryOut, handed_seq, ih]
      exact congrArg _ (List.append_nil _)

variable {rule : StoredRule} {config : Config} (hconfig : Config.ofText? rule.config = .ok config)
  (force : Bool) (camera : Option Shot) (s : σ)

include hconfig

/-- The work of a run hands over what the actions make of its message. -/
theorem handed_execute :
    let found := (evaluateNow config force).run people s
    let m := ((make (Message.make config found.1 camera)).run people found.2).1
    handed people (execute rule force camera) s =
      if found.1.isFired then config.actions.map (handOver rule m) else [] := by
  intro found m
  have hevaluate : handed people (evaluateNow config force) s = [] :=
    handed_eq_nil people
      ((Dialogue.asks_put id).bind fun _ => Dialogue.asks_embed _ fun _ => id) s
  have hmake : handed people (make (Message.make config found.1 camera)) found.2 = [] :=
    handed_eq_nil people (Dialogue.asks_embed _ fun _ => id) found.2
  rw [execute_of_ok hconfig, handed_seq, hevaluate, List.nil_append]
  change handed people (if found.1.isFired then _ else _) found.2 = _
  split
  · rw [handed_seq, hmake, List.nil_append, handed_seq, handed_carryOutAll]
    exact List.append_nil _
  · rfl

theorem run_execute :
    let found := (evaluateNow config force).run people s
    ∃ reports, ((execute rule force camera).run people s).1 =
      if found.1.isFired then (.fired, .ok (.ofReports found.1.kpi reports))
      else (.notFired, .ok .notFired) := by
  intro found
  rw [execute_of_ok hconfig, Dialogue.run_seq]
  change ∃ reports, (Dialogue.run people (if found.1.isFired then _ else _) found.2).1 = _
  split
  · rw [Dialogue.run_seq, Dialogue.run_seq]
    exact ⟨_, rfl⟩
  · exact ⟨[], rfl⟩

end Handed

/-! ## The same material -/

section Staff

variable {σ τ α : Type} (supplier : (m : Material) → τ → m.Reply × τ)
  (others : (n : Need) → σ → n.Reply × σ)

/-- Everyone whom a run needs, among them someone with a memory of his own for the material. -/
def staff : (n : Need) → σ × τ → n.Reply × (σ × τ)
  | .material m, (s, t) => ((supplier m t).1, (s, (supplier m t).2))
  | n, (s, t) => ((others n s).1, ((others n s).2, t))

theorem run_make (d : Making α) (s : σ) (t : τ) :
    (make d).run (staff supplier others) (s, t) =
      ((d.run supplier t).1, (s, (d.run supplier t).2)) := by
  induction d generalizing t with
  | done a => rfl
  | ask m next ih => exact ih _ _

/-- What a forced run goes through before it acts, and what a preview then goes through. -/
theorem run_evaluateNow_eq_preview (config : Config) (camera : Option Shot) (s : σ) (t : τ) :
    let now := others .localTime s
    let p := ((Preview.make config now.1 camera).run supplier t).1
    let found := (evaluateNow config true).run (staff supplier others) (s, t)
    let m := ((make (Message.make config found.1 camera)).run (staff supplier others) found.2).1
    found.1 = p.evaluation ∧ m.html = p.html ∧ Preview.firstShort? m config = p.sms := by
  intro now p found m
  let e := (Making.ofAsking (config.evaluate now.1 true)).run supplier t
  have hfound : found = (e.1, (now.2, e.2)) := by
    change (evaluateNow config true).run (staff supplier others) (s, t) = _
    unfold evaluateNow
    rw [Dialogue.run_seq]
    exact run_make supplier others _ _ _
  have hm : m = ((Message.make config e.1 camera).run supplier e.2).1 := by
    change ((make (Message.make config found.1 camera)).run _ found.2).1 = _
    rw [hfound, run_make]
  have hp : p =
      { html := m.html, sms := Preview.firstShort? m config, tokens := m.tokens
        evaluation := e.1 } := by
    change ((Preview.make config now.1 camera).run supplier t).1 = _
    unfold Preview.make
    rw [Dialogue.run_seq, Dialogue.run_seq, hm]
    rfl
  rw [hp, hfound]
  exact ⟨rfl, rfl, rfl⟩

end Staff

/-- Whether a need is what an action hands over: to its recipients, with this body if it is a
mail. -/
def IsHandedOver (html : String) : Action → Need → Prop
  | .email recipients _, .sendEmail mail => mail.recipients = recipients ∧ mail.html = html
  | .sms recipients _, .sendSms receivers _ => receivers = recipients
  | _, _ => False

theorem isHandedOver_handOver (rule : StoredRule) (m : Message) (action : Action) :
    IsHandedOver m.html action (handOver rule m action) := by
  cases action with
  | email recipients subject => exact ⟨rfl, rfl⟩
  | sms recipients text => exact rfl

theorem findSome?_short?_handOver (rule : StoredRule) (m : Message) (config : Config) :
    (config.actions.map (handOver rule m)).findSome? Need.short? =
      Preview.firstShort? m config := by
  unfold Preview.firstShort?
  rw [List.findSome?_map]
  congr 1
  funext action
  cases action <;> rfl

/-- If a preview at the time of a forced run is told the same about its material, the run is about
the same evaluation.  It hands over nothing unless the preview fires, and then one message for each
action, in their order: mails with the body of the preview, and first its short message. -/
theorem handed_of_forced_run {σ τ : Type} (supplier : (m : Material) → τ → m.Reply × τ)
    (others : (n : Need) → σ → n.Reply × σ) (runner : Runner) {rule : StoredRule} {config : Config}
    (hconfig : Config.ofText? rule.config = .ok config) (s : σ) (t : τ)
    (hfresh : ∀ r ∈ runner.store.runs, r.id ≠ (others .freshId s).1) (origin : Run.Origin)
    (camera : Option Shot) :
    let people := staff supplier others
    let run := runner.run rule true origin camera
    let sent := handed people run (s, t)
    let started := (others .instant (others .freshId s).2).2
    let now := (others .localTime started).1
    let p := ((Preview.make config now camera).run supplier t).1
    ((evaluateNow config true).run people (started, t)).1 = p.evaluation ∧
      (∃ reports, (run.run people (s, t)).1.1 =
        .ok (if p.evaluation.isFired then .ofReports p.evaluation.kpi reports else .notFired)) ∧
      (sent ≠ [] → p.evaluation.isFired = true) ∧
      (p.evaluation.isFired = true →
        List.Forall₂ (IsHandedOver p.html) config.actions sent ∧
          sent.findSome? Need.short? = p.sms) := by
  intro people run sent started now p
  let found := (evaluateNow config true).run people (started, t)
  let m := ((make (Message.make config found.1 camera)).run people found.2).1
  obtain ⟨hevaluation, hhtml, hsms⟩ : found.1 = p.evaluation ∧ m.html = p.html ∧
      Preview.firstShort? m config = p.sms :=
    run_evaluateNow_eq_preview supplier others config camera started t
  have hsent : sent = if found.1.isFired then config.actions.map (handOver rule m) else [] :=
    (filterMap_exchanges_run people (fun _ h => if_neg h) hfresh true origin camera).trans
      (handed_execute people hconfig true camera (started, t))
  obtain ⟨reports, hreports⟩ := run_execute people hconfig true camera (started, t)
  have hreturned : (run.run people (s, t)).1.1 = report origin _ :=
    congrArg (·.1.1) (run_run people (s := (s, t)) runner rule hfresh true origin camera)
  rw [← hevaluation, ← hhtml, ← hsms]
  refine ⟨rfl, ⟨reports, ?_⟩, ?_, ?_⟩
  · refine hreturned.trans ((congrArg (fun work => report origin work.2) hreports).trans ?_)
    dsimp only [found]
    cases origin <;> split <;> rfl
  · intro hne
    cases hfired : found.1.isFired with
    | true => rfl
    | false => exact absurd (hsent.trans (if_neg (hfired ▸ Bool.false_ne_true))) hne
  · intro hfired
    rw [hsent, if_pos hfired]
    refine ⟨?_, findSome?_short?_handOver rule m config⟩
    rw [List.forall₂_map_right_iff, List.forall₂_same]
    exact fun action _ => isHandedOver_handOver rule m action

def morningNotice : StoredRule :=
  { (default : StoredRule) with
    name := "Notice"
    config := "\x7b\"triggersGroup\":\x7b\"time\":\x7b\"hour\":9,\"minute\":0\x7d\x7d," ++
      "\"template\":\"<p>Good morning</p>\"," ++
      "\"actions\":[\x7b\"type\":\"email\",\"to\":\"a@example.com\"\x7d," ++
      "\x7b\"type\":\"sms\",\"to\":\"1\",\"message\":\"Good morning\"\x7d]\x7d" }

def noticeRunner : Runner :=
  { busyRunner with
    store := { busyRunner.store with rules := [reminder, morningNotice] } }

def noSupplier (m : Material) (t : Nat) : m.Reply × Nat :=
  switchboard (.material m) t

theorem handed_of_forced_run_morningNotice :
    (∀ r ∈ noticeRunner.store.runs, r.id ≠ (switchboard .freshId 2).1) ∧
      ∃ config, Config.ofText? morningNotice.config = .ok config ∧
        let p := ((Preview.make config default none).run noSupplier 0).1
        let sent := handed (staff noSupplier switchboard)
          (noticeRunner.run morningNotice true .manual none) (2, 0)
        config.actions = [.email ["a@example.com"] "", .sms ["1"] "Good morning"] ∧
          p.evaluation.isFired = true ∧ p.sms = some "Good morning" ∧
          List.Forall₂ (IsHandedOver p.html) config.actions sent ∧
          sent.findSome? Need.short? = p.sms := by
  have hfresh : ∀ r ∈ noticeRunner.store.runs, r.id ≠ (switchboard .freshId 2).1 := by
    decide
  have hread : (Config.ofText? morningNotice.config).toOption.map (fun config =>
      let p := ((Preview.make config default none).run noSupplier 0).1
      (config.actions, p.evaluation.isFired, p.sms)) =
        some ([.email ["a@example.com"] "", .sms ["1"] "Good morning"], true,
          some "Good morning") := by
    decide +kernel
  cases hconfig : Config.ofText? morningNotice.config with
  | error fault =>
      rw [hconfig] at hread
      cases hread
  | ok config =>
      rw [hconfig] at hread
      obtain ⟨hactions, hfired, hsms⟩ := by
        simpa only [Prod.mk.injEq] using Option.some.inj hread
      obtain ⟨-, -, -, hsent⟩ := handed_of_forced_run noSupplier switchboard noticeRunner hconfig 2
        0 hfresh .manual none
      exact ⟨hfresh, config, rfl, hactions, hfired, hsms, hsent hfired⟩

end Runner

end Alerting
