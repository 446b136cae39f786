import Alerting.Evaluation
import Alerting.Proofs.Breakdown.Cards
/-!
# What an outcome says

The outcome of a threshold condition agrees with the threshold and with the filter that the pick has
left, whatever the engine answers and whichever ways of asking have failed.
-/

namespace Alerting

open Query Rule

/-! ## Thresholds without a bound -/

theorem Threshold.isMetBy_of_bound_eq_none {t : Threshold} (h : t.bound = none) (x : Float) :
    t.isMetBy x = false := by
  unfold isMetBy
  rw [h]
  rfl

/-! ## Outcomes -/

namespace Outcome

/-- The breakdown of a condition: its legend fields are there, and the filter leaves them all
free. -/
structure IsByCategory (threshold : Threshold) (fields : List String) (filter : Filter)
    (b : Breakdown) : Prop where
  fields_ne_nil : fields ≠ []
  get?_eq_none : ∀ field ∈ fields, filter.get? field = none
  cards_ne_nil : b.cards ≠ []
  isMatch_eq : ∀ card ∈ b.cards, card.isMatch = threshold.isMetBy card.value

/-- What each outcome says about the threshold, the legend fields and the filter. -/
def Agrees (threshold : Threshold) (fields : List String) (filter : Filter) : Outcome → Prop
  | fired kpi => threshold.isMetBy kpi = true
  | notFired kpi none => threshold.isMetBy kpi = false
  | firedPerCategory b =>
    IsByCategory threshold fields filter b ∧ ∃ card ∈ b.cards, card.isMatch = true
  | notFired kpi (some b) =>
    IsByCategory threshold fields filter b ∧ (∀ card ∈ b.cards, card.isMatch = false) ∧
      ∃ top rest, b.cards = top :: rest ∧ kpi = top.value ∧ ∀ card ∈ b.cards, card.value ≤ top.value

variable {threshold : Threshold} {fields : List String} {filter : Filter}

theorem isFired_ofKpi (threshold : Threshold) (kpi : Float) :
    (ofKpi threshold kpi).isFired = threshold.isMetBy kpi := by
  unfold ofKpi
  cases threshold.isMetBy kpi <;> rfl

theorem agrees_ofKpi (kpi : Float) : (ofKpi threshold kpi).Agrees threshold fields filter := by
  unfold ofKpi
  by_cases hmet : threshold.isMetBy kpi = true
  · rw [if_pos hmet]
    exact hmet
  · rw [if_neg hmet]
    exact Bool.eq_false_iff.mpr hmet

theorem agrees_ofBreakdown {b : Breakdown} (hb : b.Agrees threshold)
    (hactive : Breakdown.isActive fields filter = true) :
    (ofBreakdown b).Agrees threshold fields filter := by
  rw [Breakdown.isActive_iff] at hactive
  have hcategory : IsByCategory threshold fields filter b :=
    ⟨hactive.1, hactive.2, hb.cards_ne_nil, hb.isMatch_eq⟩
  have hmatch := hb.fires_eq
  unfold ofBreakdown
  by_cases hfires : b.fires = true
  · rw [if_pos hfires]
    rw [hfires] at hmatch
    exact ⟨hcategory, List.any_eq_true.mp hmatch.symm⟩
  · rw [if_neg hfires]
    rw [Bool.not_eq_true] at hfires
    rw [hfires] at hmatch
    refine ⟨hcategory, fun card hcard => ?_, hb.kpi_eq hfires⟩
    exact Bool.eq_false_iff.mpr (List.any_eq_false.mp hmatch.symm card hcard)

theorem isFired_of_bound_eq_none {o : Outcome} (ho : o.Agrees threshold fields filter)
    (hbound : threshold.bound = none) : o.isFired = false := by
  cases o with
  | notFired kpi b => rfl
  | fired kpi =>
      have hmet : threshold.isMetBy kpi = true := ho
      rw [Threshold.isMetBy_of_bound_eq_none hbound] at hmet
      cases hmet
  | firedPerCategory b =>
      obtain ⟨hcategory, card, hcard, hmatch⟩ := ho
      rw [hcategory.isMatch_eq card hcard, Threshold.isMetBy_of_bound_eq_none hbound] at hmatch
      cases hmatch

end Outcome

/-! ## Evaluating a condition -/

namespace Rule.ThresholdCondition

variable {σ : Type}

/-- An outcome comes of a breakdown, or of the single number where there is no breakdown. -/
theorem ensures_outcome_of {rely : Request → Answer → Prop} {post : Outcome → Prop}
    (c : ThresholdCondition) (filter : Filter)
    (hbreakdown : Breakdown.isActive c.legend filter = true →
      (Breakdown.resolve? (c.kpi filter) c.legend c.threshold).Ensures rely fun b? =>
        ∀ b, b? = .ok b → post (.ofBreakdown b))
    (hsingle : (c.kpi filter).resolve.Ensures rely fun kpi => post (.ofKpi c.threshold kpi)) :
    (c.outcome filter).Ensures rely post := by
  unfold outcome
  dsimp only
  split
  · next hactive =>
    rw [Dialogue.ensures_bind]
    apply (hbreakdown hactive).mono
    intro b? hb
    cases b? with
    | ok b => exact hb b rfl
    | error e => exact (Dialogue.ensures_bind _ _).mpr hsingle
  · exact (Dialogue.ensures_bind _ _).mpr hsingle

theorem ensures_outcome {rely : Request → Answer → Prop} (c : ThresholdCondition)
    (filter : Filter) :
    (c.outcome filter).Ensures rely (·.Agrees c.threshold c.legend filter) := by
  apply ensures_outcome_of
  · intro hactive
    apply (Breakdown.ensures_resolve? _ _ _).mono
    intro b? hb b hok
    exact Outcome.agrees_ofBreakdown (hb b hok) hactive
  · exact Dialogue.ensures_of_forall _ Outcome.agrees_ofKpi

theorem run_evaluate (engine : Request → σ → Answer × σ) (s : σ) (c : ThresholdCondition)
    (today : Date) :
    ((c.evaluate today).run engine s).1 =
      let pick := (c.pickContext.resolve today).run engine s
      ⟨c, pick.1, ((c.outcome pick.1.filter).run engine pick.2).1⟩ := by
  unfold evaluate
  rw [Dialogue.run_seq, Dialogue.run_seq]
  rfl

/-- An evaluation agrees with the threshold of its condition, under the filter that its pick has
left; and without a bound it does not fire. -/
theorem evaluate_agrees (engine : Request → σ → Answer × σ) (s : σ) (c : ThresholdCondition)
    (today : Date) :
    let e := ((c.evaluate today).run engine s).1
    e.condition = c ∧ e.pick = ((c.pickContext.resolve today).run engine s).1 ∧
      e.outcome.Agrees c.threshold c.legend e.pick.filter ∧
      (c.value.bind (Bound.ofJson? c.comparison) = none → e.outcome.isFired = false) := by
  intro e
  have he : e = _ := run_evaluate engine s c today
  have hagrees : e.outcome.Agrees c.threshold c.legend e.pick.filter := by
    have houtcome : (c.outcome e.pick.filter).Ensures (fun _ _ => True)
        (·.Agrees c.threshold c.legend e.pick.filter) := ensures_outcome c e.pick.filter
    rw [he] at houtcome ⊢
    exact houtcome.run (fun _ _ => trivial) _
  refine ⟨?_, ?_, hagrees, Outcome.isFired_of_bound_eq_none hagrees⟩
  · rw [he]
  · rw [he]

end Rule.ThresholdCondition

end Alerting
