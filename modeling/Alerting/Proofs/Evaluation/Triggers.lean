import Alerting.Evaluation
import Alerting.Proofs.Dialogue
/-!
# Groups and lists of triggers

A rule has a group of two sides or a list of triggers.  Both sides of a group are evaluated.  A list
is evaluated up to the first trigger that fires, which is described by what the triggers would come
to if they were all evaluated one after another.
-/

namespace Alerting.Rule

open Query

/-! ## One trigger -/

def Trigger.evaluate (today : Date) : Trigger → Asking (Option ThresholdEvaluation)
  | .time _ => pure none
  | .threshold c => some <$> c.evaluate today

/-- Whether a trigger fires that comes to this; a time trigger does. -/
def fires (found : Option ThresholdEvaluation) : Bool :=
  found.all (·.outcome.isFired)

theorem fires_none : fires none = true := rfl

theorem fires_some (e : ThresholdEvaluation) : fires (some e) = e.outcome.isFired := rfl

/-! ## A list of triggers -/

/-- The evaluation of a list of triggers that would come to these one after another: it reports the
first that fires, or else the last. -/
def ofFound (last : Option ThresholdEvaluation) (found : List (Option ThresholdEvaluation)) :
    Evaluation :=
  let threshold := (found.find? fires).getD (found.getLast?.getD last)
  ⟨found.any fires, threshold.map (·.outcome.kpi), none, threshold⟩

theorem ofFound_cons_of_fires {first : Option ThresholdEvaluation} (hfires : fires first = true)
    (last : Option ThresholdEvaluation) (rest : List (Option ThresholdEvaluation)) :
    ofFound last (first :: rest) = ⟨true, first.map (·.outcome.kpi), none, first⟩ := by
  unfold ofFound
  rw [List.find?_cons_of_pos hfires, List.any_cons, hfires]
  rfl

theorem ofFound_cons_of_not_fires {first : Option ThresholdEvaluation}
    (hfires : fires first = false) (last : Option ThresholdEvaluation)
    (rest : List (Option ThresholdEvaluation)) :
    ofFound last (first :: rest) = ofFound first rest := by
  unfold ofFound
  rw [List.find?_cons_of_neg (Bool.eq_false_iff.mp hfires), List.any_cons, hfires,
    List.getLast?_cons]
  rfl

variable {σ : Type} (engine : Request → σ → Answer × σ) (today : Date)

theorem run_evaluateTriggers (ts : List Trigger) (last : Option ThresholdEvaluation) (s : σ) :
    ((evaluateTriggers today last ts).run engine s).1 =
      ofFound last ((ts.mapM (Trigger.evaluate today)).run engine s).1 := by
  -- every trigger that does not fire leaves another last evaluation and another engine
  induction ts generalizing last s with
  | nil => rfl
  | cons t rest ih =>
      rw [Dialogue.run_mapM_cons]
      cases t with
      | time c =>
          rw [evaluateTriggers]
          exact (ofFound_cons_of_fires fires_none last _).symm
      | threshold c =>
          rw [evaluateTriggers, Dialogue.run_seq, Trigger.evaluate, Dialogue.run_map]
          dsimp only
          have hfires := fires_some ((c.evaluate today).run engine s).1
          cases hfired : ((c.evaluate today).run engine s).1.outcome.isFired with
          | true =>
              rw [ofFound_cons_of_fires (hfires.trans hfired)]
              rfl
          | false =>
              rw [ofFound_cons_of_not_fires (hfires.trans hfired)]
              exact ih _ _

theorem asked_evaluateTriggers (ts : List Trigger) (last : Option ThresholdEvaluation) (s : σ) :
    (evaluateTriggers today last ts).asked engine s =
      let found := ((ts.mapM (Trigger.evaluate today)).run engine s).1
      ((ts.take (found.findIdx fires + 1)).mapM (Trigger.evaluate today)).asked engine s := by
  induction ts generalizing last s with
  | nil => rfl
  | cons t rest ih =>
      rw [Dialogue.run_mapM_cons]
      dsimp only
      rw [List.take_succ_cons, Dialogue.asked_mapM_cons, List.findIdx_cons]
      cases t with
      | time c => rfl
      | threshold c =>
          rw [evaluateTriggers, Dialogue.asked_seq, Trigger.evaluate, Dialogue.run_map,
            Dialogue.asked_map]
          congr 1
          dsimp only
          have hfires := fires_some ((c.evaluate today).run engine s).1
          cases hfired : ((c.evaluate today).run engine s).1.outcome.isFired with
          | true =>
              rw [hfires.trans hfired]
              rfl
          | false =>
              rw [hfires.trans hfired]
              exact ih _ _

/-! ## Rules -/

theorem run_evaluateGroup (g : Group) (now : DateTime) (force : Bool) (s : σ) :
    ((g.evaluate now force).run engine s).1 =
      let timeMet := g.time.map (·.isMetAt now force)
      let threshold := g.threshold.map fun c => ((c.evaluate now.date).run engine s).1
      ⟨g.logic.combine (timeMet.getD true) (threshold.all (·.outcome.isFired)),
        threshold.map (·.outcome.kpi), timeMet, threshold⟩ := by
  unfold Group.evaluate
  cases g.threshold with
  | none => rfl
  | some c =>
      dsimp only
      rw [Dialogue.run_seq, Dialogue.run_map]
      rfl

theorem asked_evaluateGroup (g : Group) (now : DateTime) (force : Bool) (s : σ) :
    (g.evaluate now force).asked engine s =
      g.threshold.elim [] fun c => (c.evaluate now.date).asked engine s := by
  unfold Group.evaluate
  cases g.threshold with
  | none => rfl
  | some c =>
      dsimp only
      rw [Dialogue.asked_seq, Dialogue.asked_map, Dialogue.asked_pure, List.append_nil]
      rfl

/-- What a rule comes to, and what is asked for it.  The sides of a group are joined, and one that
is not there counts as met; the threshold side is evaluated in any case.  Of a list, the triggers up
to the first that fires are evaluated, and that one is reported, or else the last. -/
theorem evaluate_rule (s : σ) (config : Config) (now : DateTime) (force : Bool) :
    let e := ((config.evaluate now force).run engine s).1
    let asked := (config.evaluate now force).asked engine s
    e.kpi = e.threshold.map (·.outcome.kpi) ∧
      match config.group with
      | some g =>
        e.timeMet = g.time.map (·.isMetAt now force) ∧
          e.threshold = g.threshold.map (fun c => ((c.evaluate now.date).run engine s).1) ∧
          asked = g.threshold.elim [] (fun c => (c.evaluate now.date).asked engine s) ∧
          e.isFired =
            g.logic.combine (e.timeMet.getD true) (e.threshold.all (·.outcome.isFired))
      | none =>
        let found := ((config.triggers.mapM (Trigger.evaluate now.date)).run engine s).1
        e.timeMet = none ∧
          e.isFired = found.any fires ∧
          e.threshold = (found.find? fires).getD found.getLast?.join ∧
          asked = ((config.triggers.take (found.findIdx fires + 1)).mapM
            (Trigger.evaluate now.date)).asked engine s := by
  intro e asked
  cases hgroup : config.group with
  | some g =>
      have hevaluate : config.evaluate now force = g.evaluate now force := by
        rw [Config.evaluate, hgroup]
      have he : e = _ := hevaluate ▸ run_evaluateGroup engine g now force s
      have hasked : asked = _ := hevaluate ▸ asked_evaluateGroup engine g now force s
      rw [he]
      exact ⟨rfl, rfl, rfl, hasked, rfl⟩
  | none =>
      have hevaluate : config.evaluate now force =
          evaluateTriggers now.date none config.triggers := by
        rw [Config.evaluate, hgroup]
      have he : e = _ := hevaluate ▸ run_evaluateTriggers engine now.date config.triggers none s
      have hasked : asked = _ :=
        hevaluate ▸ asked_evaluateTriggers engine now.date config.triggers none s
      rw [he]
      refine ⟨rfl, rfl, rfl, ?_, hasked⟩
      unfold ofFound
      dsimp only
      congr 1
      cases List.getLast? _ with
      | none => rfl
      | some last => rfl

end Alerting.Rule
