import Alerting.Proofs.Evaluation.Outage
import Alerting.Proofs.Evaluation.Requests
import Alerting.Proofs.Evaluation.Triggers
/-!
# Groups without sides

For the schedule and for messages a group without sides is no group: the list of triggers counts.
The evaluation takes the absent sides for met, both of them: it fires at any time, and never looks
at the triggers.
-/

namespace Alerting.Rule

open Query

def Config.ungrouped (config : Config) : Config :=
  { config with group := none }

section Empty

variable {config : Config} {g : Group}

theorem Config.isSchedulable_ungrouped (hgroup : config.group = some g) (htime : g.time = none)
    (hthreshold : g.threshold = none) :
    config.ungrouped.isSchedulable = config.isSchedulable := by
  unfold isSchedulable ungrouped
  rw [hgroup, Option.any_some, htime, hthreshold]
  rfl

theorem Config.explicitCron?_ungrouped (hgroup : config.group = some g) (htime : g.time = none)
    (hthreshold : g.threshold = none) :
    config.ungrouped.explicitCron? = config.explicitCron? := by
  unfold explicitCron? ungrouped
  rw [hgroup, Option.bind_some, htime, hthreshold]
  rfl

theorem Config.primaryThreshold?_ungrouped (hgroup : config.group = some g)
    (hthreshold : g.threshold = none) :
    config.ungrouped.primaryThreshold? = config.primaryThreshold? := by
  unfold primaryThreshold? ungrouped
  rw [hgroup, Option.bind_some, hthreshold]
  rfl

theorem Config.evaluate_of_empty_group (hgroup : config.group = some g) (htime : g.time = none)
    (hthreshold : g.threshold = none) (now : DateTime) (force : Bool) :
    config.evaluate now force = pure ⟨true, none, none, none⟩ := by
  unfold evaluate
  rw [hgroup]
  dsimp only
  unfold Group.evaluate
  rw [htime, hthreshold]
  cases g.logic <;> rfl

end Empty

section Runs

variable {σ : Type} (engine : Request → σ → Answer × σ) (s : σ)

/-- A list of triggers fires without a question, and for no threshold, exactly if a time trigger
comes first. -/
theorem evaluateTriggers_at_once_iff (today : Date) (ts : List Trigger) :
    ((evaluateTriggers today none ts).run engine s).1 = ⟨true, none, none, none⟩ ∧
        (evaluateTriggers today none ts).asked engine s = [] ↔
      ∃ t rest, ts = .time t :: rest := by
  constructor
  · rintro ⟨he, hasked⟩
    cases ts with
    | nil => cases congrArg Evaluation.isFired he
    | cons first rest =>
        cases first with
        | time t => exact ⟨t, rest, rfl⟩
        | threshold c =>
            rw [evaluateTriggers, Dialogue.asked_seq, List.append_eq_nil_iff] at hasked
            exact absurd hasked.1 (c.asked_evaluate_ne_nil engine s today)
  · rintro ⟨t, rest, rfl⟩
    exact ⟨rfl, rfl⟩

/-- The schedule and the messages of a rule are the same with a group without sides as with none.
The evaluation is not: with such a group it fires for no threshold and asks nothing, which without
the group it does exactly if a time trigger comes first. -/
theorem evaluate_eq_ungrouped_iff (config : Config) {g : Group} (hgroup : config.group = some g)
    (htime : g.time = none) (hthreshold : g.threshold = none) (now : DateTime) (force : Bool) :
    let kept := config.evaluate now force
    let dropped := config.ungrouped.evaluate now force
    config.isSchedulable = config.ungrouped.isSchedulable ∧
      config.explicitCron? = config.ungrouped.explicitCron? ∧
      config.primaryThreshold? = config.ungrouped.primaryThreshold? ∧
      (kept.run engine s).1 = ⟨true, none, none, none⟩ ∧
      kept.asked engine s = [] ∧
      ((kept.run engine s).1 = (dropped.run engine s).1 ∧
          kept.asked engine s = dropped.asked engine s ↔
        ∃ t rest, config.triggers = .time t :: rest) := by
  intro kept dropped
  have hkept : kept = pure ⟨true, none, none, none⟩ :=
    Config.evaluate_of_empty_group hgroup htime hthreshold now force
  have hdropped : dropped = evaluateTriggers now.date none config.triggers := rfl
  have hsame : (kept.run engine s).1 = (dropped.run engine s).1 ∧
      kept.asked engine s = dropped.asked engine s ↔
        ∃ t rest, config.triggers = .time t :: rest := by
    rw [hkept, hdropped, ← evaluateTriggers_at_once_iff engine s now.date]
    exact and_congr eq_comm eq_comm
  rw [hkept] at hsame ⊢
  exact ⟨(Config.isSchedulable_ungrouped hgroup htime hthreshold).symm,
    (Config.explicitCron?_ungrouped hgroup htime hthreshold).symm,
    (Config.primaryThreshold?_ungrouped hgroup hthreshold).symm, rfl, rfl, hsame⟩

end Runs

def manySales : Config where
  triggers := [.threshold
    { source := "sales", aggregate := .sum, measure := some "amount", comparison := .greaterThan
      value := some (.int 10) }]
  group := some {}

theorem evaluate_eq_ungrouped_iff_manySales :
    manySales.group = some {} ∧
      ((manySales.evaluate default false).run Outage.engine ()).1.isFired = true ∧
      ¬(((manySales.evaluate default false).run Outage.engine ()).1 =
            ((manySales.ungrouped.evaluate default false).run Outage.engine ()).1 ∧
          (manySales.evaluate default false).asked Outage.engine () =
            (manySales.ungrouped.evaluate default false).asked Outage.engine ()) := by
  obtain ⟨-, -, -, hfired, -, hsame⟩ :=
    evaluate_eq_ungrouped_iff Outage.engine () manySales rfl rfl rfl default false
  refine ⟨rfl, congrArg Evaluation.isFired hfired, hsame.not.mpr ?_⟩
  rintro ⟨t, rest, htriggers⟩
  cases htriggers

/-- A rule whose only trigger is not met fires because of a group without sides. -/
theorem not_forall_evaluate_eq_ungrouped :
    ¬∀ (engine : Request → Unit → Answer × Unit) (config : Config) (g : Group),
      config.group = some g → g.time = none → g.threshold = none →
      ∀ (now : DateTime) (force : Bool),
        ((config.evaluate now force).run engine ()).1 =
            ((config.ungrouped.evaluate now force).run engine ()).1 ∧
          (config.evaluate now force).asked engine () =
            (config.ungrouped.evaluate now force).asked engine () := by
  intro h
  obtain ⟨he, -⟩ := h Outage.engine manySales {} rfl rfl rfl default false
  have hdropped : ((manySales.ungrouped.evaluate default false).run Outage.engine ()).1.isFired =
      manySales.ungrouped.isMetByZero default false :=
    (manySales.ungrouped.ensures_evaluate_of_fails default false).run (fun _ _ => ⟨_, rfl⟩) ()
  have hunmet : manySales.ungrouped.isMetByZero default false = false := by decide +kernel
  rw [← he, Config.evaluate_of_empty_group rfl rfl rfl, hunmet] at hdropped
  cases hdropped

end Alerting.Rule
