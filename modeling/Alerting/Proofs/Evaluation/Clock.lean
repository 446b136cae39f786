import Alerting.Evaluation
import Alerting.Proofs.Dialogue
/-!
# What the clock decides

Only the time side of a group looks at the time of day and at whether it is forced.  So an
evaluation at another time of the same day is the same dialogue, with that side judged anew in the
end.
-/

namespace Alerting.Rule

open Query

theorem TimeCondition.isMetAt_force (c : TimeCondition) (now : DateTime) :
    c.isMetAt now true = true := rfl

theorem Logic.combine_mono (logic : Logic) {a a' : Bool} (h : a = true → a' = true) (b : Bool) :
    logic.combine a b = true → logic.combine a' b = true := by
  cases logic with
  | and =>
      intro hab
      obtain ⟨ha, hb⟩ := Bool.and_eq_true_iff.mp hab
      exact Bool.and_eq_true_iff.mpr ⟨h ha, hb⟩
  | or =>
      intro hab
      rcases Bool.or_eq_true_iff.mp hab with ha | hb
      · exact Bool.or_eq_true_iff.mpr (.inl (h ha))
      · exact Bool.or_eq_true_iff.mpr (.inr hb)

/-! ## The time side judged anew -/

def Group.timeMet (g : Group) (now : DateTime) (force : Bool) : Option Bool :=
  g.time.map (·.isMetAt now force)

def Group.retime (g : Group) (now : DateTime) (force : Bool) (e : Evaluation) : Evaluation :=
  { e with
    isFired := g.logic.combine ((g.timeMet now force).getD true)
      (e.threshold.all (·.outcome.isFired))
    timeMet := g.timeMet now force }

theorem Group.timeMet_force_getD (g : Group) (now : DateTime) :
    (g.timeMet now true).getD true = true := by
  unfold timeMet
  cases g.time with
  | none => rfl
  | some c => exact c.isMetAt_force now

theorem Group.isFired_retime_force (g : Group) (now : DateTime) (e : Evaluation)
    (h : (g.retime now false e).isFired = true) : (g.retime now true e).isFired = true :=
  g.logic.combine_mono (fun _ => g.timeMet_force_getD now) _ h

def Config.retime (config : Config) (now : DateTime) (force : Bool) (e : Evaluation) : Evaluation :=
  match config.group with
  | some g => g.retime now force e
  | none => e

section Retime

variable (config : Config) (now : DateTime) (force : Bool) (e : Evaluation)

@[simp] theorem Config.threshold_retime : (config.retime now force e).threshold = e.threshold := by
  unfold retime
  split <;> rfl

@[simp] theorem Config.kpi_retime : (config.retime now force e).kpi = e.kpi := by
  unfold retime
  split <;> rfl

theorem Config.isFired_retime_force (h : (config.retime now false e).isFired = true) :
    (config.retime now true e).isFired = true := by
  unfold retime at h ⊢
  split
  · next g hgroup =>
    rw [hgroup] at h
    exact g.isFired_retime_force now e h
  · next hgroup =>
    rw [hgroup] at h
    exact h

end Retime

section SameDate

variable {now now' : DateTime} (hdate : now.date = now'.date) (force force' : Bool)

include hdate

theorem Group.evaluate_of_date_eq (g : Group) :
    g.evaluate now force = g.retime now force <$> g.evaluate now' force' := by
  unfold Group.evaluate
  rw [hdate]
  cases g.threshold with
  | none => rfl
  | some c =>
      dsimp only
      rw [map_bind]
      rfl

theorem Config.evaluate_of_date_eq (config : Config) :
    config.evaluate now force = config.retime now force <$> config.evaluate now' force' := by
  unfold Config.evaluate Config.retime
  cases config.group with
  | none =>
      rw [hdate]
      exact (id_map' _).symm
  | some g => exact g.evaluate_of_date_eq hdate force force'

end SameDate

/-! ## Two evaluations on one day -/

section Runs

variable {σ : Type} (engine : Request → σ → Answer × σ) (s : σ)

theorem Config.isFired_run_force (config : Config) (now : DateTime)
    (h : ((config.evaluate now false).run engine s).1.isFired = true) :
    ((config.evaluate now true).run engine s).1.isFired = true := by
  -- the evaluation without force is itself a judgement of what the rule came to
  rw [config.evaluate_of_date_eq rfl false false, Dialogue.run_map] at h
  rw [config.evaluate_of_date_eq rfl true false, Dialogue.run_map]
  exact config.isFired_retime_force now _ h

/-- Neither the time of day nor force has a say in what is asked, in what the threshold comes to and
in the state in which the engine is left.  Force never keeps a rule from firing. -/
theorem evaluate_on_same_date (config : Config) {now now' : DateTime}
    (hdate : now.date = now'.date) (force force' : Bool) :
    let one := config.evaluate now force
    let other := config.evaluate now' force'
    one.asked engine s = other.asked engine s ∧
      (one.run engine s).2 = (other.run engine s).2 ∧
      (one.run engine s).1.threshold = (other.run engine s).1.threshold ∧
      (one.run engine s).1.kpi = (other.run engine s).1.kpi ∧
      (((config.evaluate now false).run engine s).1.isFired = true →
        ((config.evaluate now true).run engine s).1.isFired = true) := by
  intro one other
  have hone : one = config.retime now force <$> other :=
    config.evaluate_of_date_eq hdate force force'
  rw [hone, Dialogue.asked_map, Dialogue.run_map]
  exact ⟨rfl, rfl, config.threshold_retime .., config.kpi_retime ..,
    config.isFired_run_force engine s now⟩

end Runs

def slowMorning : Config where
  group := some
    { time := some { hour := 9 }
      threshold := some { source := "sales", comparison := .lessThan, value := some (.int 10) }
      logic := .or }

def emptyEngine (_ : Request) (s : Unit) : Answer × Unit :=
  (.ok default, s)

theorem evaluate_on_same_date_slowMorning :
    let nine : DateTime := ⟨default, 9, 0, 0⟩
    let ten : DateTime := ⟨default, 10, 0, 0⟩
    nine.date = ten.date ∧
      (slowMorning.evaluate nine false).asked emptyEngine () =
        (slowMorning.evaluate ten true).asked emptyEngine () ∧
      ((slowMorning.evaluate nine false).run emptyEngine ()).1.isFired = true ∧
      ((slowMorning.evaluate nine true).run emptyEngine ()).1.isFired = true := by
  intro nine ten
  have hdate : nine.date = ten.date := rfl
  obtain ⟨hasked, -, -, -, hforce⟩ :=
    evaluate_on_same_date emptyEngine () slowMorning hdate false true
  have hfired : ((slowMorning.evaluate nine false).run emptyEngine ()).1.isFired = true := by
    rw [slowMorning.evaluate_of_date_eq rfl false false, Dialogue.run_map]
    rfl
  exact ⟨hdate, hasked, hfired, hforce hfired⟩

end Alerting.Rule
