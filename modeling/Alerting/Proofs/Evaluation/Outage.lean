import Alerting.Proofs.Evaluation.Ladder
import Alerting.Runner
/-!
# When the query engine is down

Every step of an evaluation has a fallback, so an engine that answers nothing leaves the number zero
and no categories.  A threshold then fires if zero meets it.
-/

namespace Alerting

open Query Rule

def Query.Fails (_ : Request) (answer : Answer) : Prop :=
  ∃ failure, answer = .error failure

/-! ## Ladders -/

theorem Query.ensures_climb_of_fails {β : Type} {rungs : List (Rung β)}
    (h : ∀ rung ∈ rungs, ∀ failure, rung.read? (.error failure) = none) :
    (climb rungs).Ensures Fails (· = none) := by
  induction rungs with
  | nil => rfl
  | cons rung rest ih =>
      rw [List.forall_mem_cons] at h
      rw [climb_cons]
      rintro _ ⟨failure, rfl⟩
      dsimp only
      rw [h.1 failure]
      exact ih h.2

theorem Kpi.read?_error_of_mem_rungs {α : Type} [Figure α] [CellNumber α] (k : Kpi) :
    ∀ rung ∈ k.rungs (α := α), ∀ failure, rung.read? (.error failure) = none := by
  have hby : ∀ strategy, ∀ rung ∈ k.rungsBy (α := α) strategy, ∀ failure,
      rung.read? (.error failure) = none := by
    intro strategy rung hrung failure
    cases strategy with
    | query =>
        rw [List.mem_singleton.mp hrung]
        rfl
    | pivot =>
        unfold rungsBy pivotRungs at hrung
        dsimp only at hrung
        split at hrung
        · rw [List.mem_singleton.mp hrung]
          rfl
        · rcases List.mem_pair.mp hrung with rfl | rfl <;> rfl
  intro rung hrung
  exact (List.mem_append.mp hrung).elim (hby _ rung) (hby _ rung)

/-! ## Conditions -/

namespace Rule

theorem ThresholdCondition.read?_error_of_mem_groupRungs (c : ThresholdCondition)
    (filter : Filter) :
    ∀ rung ∈ c.groupRungs filter, ∀ failure, rung.read? (.error failure) = none := by
  intro rung hrung failure
  unfold groupRungs at hrung
  split at hrung
  · rcases List.mem_pair.mp hrung with rfl | rfl <;> rfl
  · cases hrung

theorem ThresholdCondition.ensures_outcome_of_fails (c : ThresholdCondition) (filter : Filter) :
    (c.outcome filter).Ensures Fails (· = .ofKpi c.threshold 0) := by
  rw [outcome_eq, Dialogue.ensures_bind]
  apply (ensures_climb_of_fails (c.read?_error_of_mem_groupRungs filter)).mono
  rintro _ rfl
  apply (Dialogue.ensures_bind _ _).mpr
  apply (ensures_climb_of_fails (c.kpi filter).read?_error_of_mem_rungs).mono
  rintro _ rfl
  exact congrArg (Outcome.ofKpi c.threshold) (ite_self 0)

theorem ThresholdCondition.ensures_evaluate_of_fails (c : ThresholdCondition) (today : Date) :
    (c.evaluate today).Ensures Fails fun e => e.outcome = .ofKpi c.threshold 0 := by
  unfold evaluate
  rw [Dialogue.ensures_bind]
  apply Dialogue.ensures_of_forall
  intro pick
  rw [Dialogue.ensures_bind]
  exact c.ensures_outcome_of_fails pick.filter

/-! ## Rules -/

def Trigger.isMetByZero : Trigger → Bool
  | .time _ => true
  | .threshold c => c.threshold.isMetBy 0

theorem ensures_evaluateTriggers_of_fails (today : Date) (ts : List Trigger)
    (last : Option ThresholdEvaluation) :
    (evaluateTriggers today last ts).Ensures Fails fun e =>
      e.isFired = ts.any Trigger.isMetByZero := by
  induction ts generalizing last with
  | nil => rfl
  | cons t rest ih =>
      rw [List.any_cons]
      cases t with
      | time c => rfl
      | threshold c =>
          rw [evaluateTriggers, Dialogue.ensures_bind]
          apply (c.ensures_evaluate_of_fails today).mono
          intro e he
          have hfired : e.outcome.isFired = Trigger.isMetByZero (.threshold c) := by
            rw [he, Outcome.isFired_ofKpi]
            rfl
          rw [hfired]
          cases Trigger.isMetByZero (.threshold c) with
          | true => rfl
          | false => exact ih (some e)

theorem Group.ensures_evaluate_of_fails (g : Group) (now : DateTime) (force : Bool) :
    (g.evaluate now force).Ensures Fails fun e =>
      e.isFired = g.logic.combine ((g.time.map (·.isMetAt now force)).getD true)
        (g.threshold.all (·.threshold.isMetBy 0)) := by
  unfold evaluate
  cases g.threshold with
  | none => rfl
  | some c =>
      dsimp only
      rw [Dialogue.ensures_bind, Dialogue.ensures_map]
      apply (c.ensures_evaluate_of_fails now.date).mono
      intro e he
      rw [Dialogue.ensures_pure, Option.all_some, Option.all_some, he, Outcome.isFired_ofKpi]

/-- Whether a rule fires at a time when all its numbers are zero. -/
def Config.isMetByZero (config : Config) (now : DateTime) (force : Bool) : Bool :=
  match config.group with
  | some g =>
    g.logic.combine ((g.time.map (·.isMetAt now force)).getD true)
      (g.threshold.all (·.threshold.isMetBy 0))
  | none => config.triggers.any Trigger.isMetByZero

theorem Config.ensures_evaluate_of_fails (config : Config) (now : DateTime) (force : Bool) :
    (config.evaluate now force).Ensures Fails (·.isFired = config.isMetByZero now force) := by
  unfold evaluate isMetByZero
  cases config.group with
  | none => exact ensures_evaluateTriggers_of_fails now.date config.triggers none
  | some g => exact g.ensures_evaluate_of_fails now force

end Rule

namespace Runner

def Fails : (n : Need) → n.Reply → Prop
  | .material (.query q), answer => Query.Fails q answer
  | _, _ => True

theorem ensures_execute_of_fails (rule : StoredRule) (force : Bool) (camera : Option Shot)
    {config : Config} (hconfig : Config.ofText? rule.config = .ok config) :
    (execute rule force camera).Ensures Fails fun result =>
      ∃ now, result = (.notFired, .ok .notFired) ↔ config.isMetByZero now force = false := by
  unfold execute
  rw [hconfig]
  dsimp only
  rw [Dialogue.ensures_bind]
  unfold need
  rw [Dialogue.ensures_put]
  intro now _
  have hmaking : (Making.ofAsking (config.evaluate now force)).Ensures
      (fun m => Fails (.material m)) (·.isFired = config.isMetByZero now force) :=
    (config.ensures_evaluate_of_fails now force).embed fun _ _ hanswer => hanswer
  have hmake : (make (.ofAsking (config.evaluate now force))).Ensures Fails
      (·.isFired = config.isMetByZero now force) :=
    hmaking.embed fun _ _ hreply => hreply
  rw [Dialogue.ensures_bind]
  apply hmake.mono
  intro e he
  by_cases hfired : e.isFired = true
  · rw [if_pos hfired, Dialogue.ensures_bind]
    apply Dialogue.ensures_of_forall
    intro m
    rw [Dialogue.ensures_bind]
    apply Dialogue.ensures_of_forall
    intro reports
    refine ⟨now, ?_⟩
    rw [he] at hfired
    rw [hfired]
    constructor <;> intro h <;> cases h
  · rw [if_neg hfired]
    refine ⟨now, ?_⟩
    rw [he] at hfired
    exact iff_of_true rfl (Bool.eq_false_iff.mpr hfired)

end Runner

/-! ## Outages -/

variable {σ : Type}

/-- A condition whose engine is down comes to the number zero, without categories.  A rule that has
only such conditions ends without firing exactly if zero meets none of them, or, in a group, if zero
does not meet the one that the time side, which is absent and counts as met, is joined with. -/
theorem outcome_of_outage (engine : Request → σ → Answer × σ)
    (hdown : ∀ q s, ∃ failure, (engine q s).1 = .error failure) (s : σ) :
    (∀ (c : ThresholdCondition) (today : Date),
      let outcome := ((c.evaluate today).run engine s).1.outcome
      outcome = .ofKpi c.threshold 0 ∧ outcome.isFired = c.threshold.isMetBy 0) ∧
    ∀ people : (n : Runner.Need) → σ → n.Reply × σ,
      (∀ q s, people (.material (.query q)) s = engine q s) →
      ∀ (rule : StoredRule) (force : Bool) (camera : Option Shot) (config : Config),
      Config.ofText? rule.config = .ok config →
      let ended := ((Runner.execute rule force camera).run people s).1
      match config.group with
      | some g => g.time = none →
        (ended = (.notFired, .ok ⟨true, "No trigger fired"⟩) ↔
          g.logic = .and ∧ ∃ c, g.threshold = some c ∧ c.threshold.isMetBy 0 = false)
      | none => (∀ c, .time c ∉ config.triggers) →
        (ended = (.notFired, .ok ⟨true, "No trigger fired"⟩) ↔
          ∀ c, .threshold c ∈ config.triggers → c.threshold.isMetBy 0 = false) := by
  constructor
  · intro c today outcome
    have houtcome : outcome = .ofKpi c.threshold 0 :=
      (c.ensures_evaluate_of_fails today).run hdown s
    exact ⟨houtcome, houtcome ▸ Outcome.isFired_ofKpi c.threshold 0⟩
  · intro people hpeople rule force camera config hconfig ended
    have hreplies : ∀ n s, Runner.Fails n (people n s).1 := by
      intro n s
      match n with
      | .material (.query q) => exact hpeople q s ▸ hdown q s
      | .material (.capture ..) => trivial
      | .sendEmail _ => trivial
      | .sendSms .. => trivial
      | .localTime => trivial
      | .instant => trivial
      | .freshId => trivial
    obtain ⟨now, hended⟩ :=
      (Runner.ensures_execute_of_fails rule force camera hconfig).run hreplies s
    unfold Config.isMetByZero at hended
    cases hgroup : config.group with
    | some g =>
        intro htime
        rw [hgroup] at hended
        dsimp only at hended
        rw [htime] at hended
        refine hended.trans ?_
        rcases g with ⟨time, threshold, logic⟩
        cases logic <;> cases threshold <;> simp [Logic.combine]
    | none =>
        intro htriggers
        rw [hgroup] at hended
        refine hended.trans ?_
        dsimp only
        rw [List.any_eq_false]
        constructor
        · intro h c hc
          exact Bool.eq_false_iff.mpr (h _ hc)
        · intro h t ht
          cases t with
          | time c => exact absurd ht (htriggers c)
          | threshold c => exact Bool.eq_false_iff.mp (h c ht)

def Outage.aboveTen : StoredRule :=
  { (default : StoredRule) with
    config := "\x7b\"triggers\": [\x7b\"type\": \"threshold\", \"source\": \"sales\", " ++
      "\"aggregator\": \"sum\", \"measure\": \"amount\", \"operator\": \">\", " ++
      "\"value\": 10\x7d]\x7d" }

def Outage.belowTen : ThresholdCondition :=
  { source := "sales", aggregate := .sum, measure := some "amount", comparison := .lessThan
    value := some (.int 10) }

def Outage.engine (_ : Request) (s : Unit) : Answer × Unit :=
  (.error (.ofMessage "connection refused"), s)

def Outage.people : (n : Runner.Need) → Unit → n.Reply × Unit
  | .material (.query q), s => Outage.engine q s
  | .material (.capture ..), s => (.error (.ofMessage "connection refused"), s)
  | .sendEmail _, s => (default, s)
  | .sendSms .., s => (default, s)
  | .localTime, s => (default, s)
  | .instant, s => (default, s)
  | .freshId, s => (default, s)

theorem Outage.exists_config_aboveTen : ∃ config, Config.ofText? aboveTen.config = .ok config ∧
    config.group.isNone = true ∧ config.triggers.all (!·.isMetByZero) = true := by
  have hread : (Config.ofText? aboveTen.config).toOption.any
      (fun config => config.group.isNone && config.triggers.all (!·.isMetByZero)) = true := by
    decide +kernel
  cases hconfig : Config.ofText? aboveTen.config with
  | error fault =>
      rw [hconfig] at hread
      cases hread
  | ok config =>
      rw [hconfig] at hread
      exact ⟨config, rfl, Bool.and_eq_true_iff.mp hread⟩

theorem outcome_of_outage_ten :
    (∀ q s, ∃ failure, (Outage.engine q s).1 = .error failure) ∧
      ((Outage.belowTen.evaluate default).run Outage.engine ()).1.outcome = .fired 0 ∧
      ((Runner.execute Outage.aboveTen false none).run Outage.people ()).1 =
        (.notFired, .ok ⟨true, "No trigger fired"⟩) := by
  have hdown : ∀ q s, ∃ failure, (Outage.engine q s).1 = .error failure :=
    fun _ _ => ⟨_, rfl⟩
  obtain ⟨hcondition, hrule⟩ := outcome_of_outage Outage.engine hdown ()
  refine ⟨hdown, (hcondition Outage.belowTen default).1, ?_⟩
  obtain ⟨config, hconfig, hgroup, htriggers⟩ := Outage.exists_config_aboveTen
  rw [Option.isNone_iff_eq_none] at hgroup
  rw [List.all_eq_true] at htriggers
  have hended := hrule Outage.people (fun _ _ => rfl) Outage.aboveTen false none config hconfig
  rw [hgroup] at hended
  refine (hended fun c hc => ?_).mpr fun c hc => ?_
  · cases htriggers (.time c) hc
  · have hunmet := htriggers (.threshold c) hc
    rw [Bool.not_eq_true'] at hunmet
    exact hunmet

/-- Zero is less than ten, so an outage can make a condition fire. -/
theorem not_forall_outage_not_fired :
    ¬ ∀ (engine : Request → Unit → Answer × Unit),
      (∀ q s, ∃ failure, (engine q s).1 = .error failure) →
      ∀ (c : ThresholdCondition) (today : Date),
        ((c.evaluate today).run engine ()).1.outcome.isFired = false := by
  intro h
  have hfired := h Outage.engine (fun _ _ => ⟨_, rfl⟩) Outage.belowTen default
  have houtcome : ((Outage.belowTen.evaluate default).run Outage.engine ()).1.outcome = .fired 0 :=
    (Outage.belowTen.ensures_evaluate_of_fails default).run (fun _ _ => ⟨_, rfl⟩) ()
  rw [houtcome] at hfired
  cases hfired

end Alerting
