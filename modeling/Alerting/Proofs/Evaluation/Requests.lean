import Alerting.Proofs.Evaluation.Ladder
/-!
# The requests of a condition

Whichever way a condition asks, first or as a fallback, it asks the same question: its requests
differ in their form, never in the source, the function, the measure or the filter.
-/

namespace Alerting

open Query Rule

namespace Query

/-! ## Requests of both kinds -/

namespace Request

def source : Request → String
  | aggregate a => a.source
  | pivot p => p.source

def function : Request → Aggregate
  | aggregate a => a.aggregate
  | pivot p => p.aggregate

def measure : Request → Option String
  | aggregate a => a.measure
  | pivot p => p.valueField

def filter : Request → Filter
  | aggregate a => a.filter
  | pivot p => p.filter

structure IsAbout (q : Request) (c : ThresholdCondition) (filter : Filter) : Prop where
  source_eq : q.source = c.source
  function_eq : q.function = c.aggregate
  measure_eq : q.measure = if c.aggregate = .count then none else c.measure
  filter_eq : q.filter = filter

/-- The request groups by these fields in this order, and by nothing else. -/
def GroupsBy (fields : List String) : Request → Prop
  | aggregate a => a.groupBy = fields ∧ a.legend = fields.head? ∧ a.x = none
  | pivot p => p.rows = fields ∧ p.cols = []

/-- The request asks for a single number: without a dimension, or by a cross table over the x
field. -/
def IsSingle (xField : Option String) : Request → Prop
  | aggregate a => a.groupBy = [] ∧ a.legend = none ∧ a.x = none
  | pivot p => (p.rows = [] ∨ ∃ field ≠ "", xField = some field ∧ p.rows = [field]) ∧ p.cols = []

end Request

theorem Aggregate.measure_eq (aggregate : Aggregate) (configured : Option String) :
    aggregate.measure configured = if aggregate = .count then none else configured := by
  cases aggregate <;> rfl

end Query

namespace Rule.ThresholdCondition

section Requests

variable (c : ThresholdCondition) (filter : Filter)

/-! ## The ladders -/

theorem request_rung (strategy : Strategy) :
    let q := (Breakdown.rung (α := Float) (c.kpi filter) c.legend strategy).request
    q.IsAbout c filter ∧ q.GroupsBy c.legend := by
  have hmeasure := c.aggregate.measure_eq c.measure
  cases strategy with
  | query => exact ⟨⟨rfl, rfl, hmeasure, rfl⟩, rfl, rfl, rfl⟩
  | pivot => exact ⟨⟨rfl, rfl, hmeasure, rfl⟩, rfl, rfl⟩

theorem requests_groupRungs :
    ∀ rung ∈ c.groupRungs filter,
      rung.request.IsAbout c filter ∧ rung.request.GroupsBy c.legend := by
  intro rung hrung
  unfold groupRungs at hrung
  split at hrung
  · rcases List.mem_pair.mp hrung with rfl | rfl
    · exact c.request_rung filter _
    · exact c.request_rung filter _
  · cases hrung

theorem requests_rungs :
    ∀ rung ∈ (c.kpi filter).rungs (α := Float),
      rung.request.IsAbout c filter ∧ rung.request.IsSingle c.xField := by
  have hmeasure := c.aggregate.measure_eq c.measure
  have hby : ∀ strategy, ∀ rung ∈ (c.kpi filter).rungsBy (α := Float) strategy,
      rung.request.IsAbout c filter ∧ rung.request.IsSingle c.xField := by
    intro strategy rung hrung
    cases strategy with
    | query =>
        rw [List.mem_singleton.mp hrung]
        exact ⟨⟨rfl, rfl, hmeasure, rfl⟩, rfl, rfl, rfl⟩
    | pivot =>
        unfold Kpi.rungsBy Kpi.pivotRungs at hrung
        dsimp only at hrung
        split at hrung
        · rw [List.mem_singleton.mp hrung]
          exact ⟨⟨rfl, rfl, hmeasure, rfl⟩, .inl rfl, rfl⟩
        · next field hfield =>
          obtain ⟨hset, hne⟩ := Option.filter_eq_some_iff.mp hfield
          rw [decide_eq_true_iff] at hne
          rcases List.mem_pair.mp hrung with rfl | rfl
          · exact ⟨⟨rfl, rfl, hmeasure, rfl⟩, .inr ⟨field, hne, hset, rfl⟩, rfl⟩
          · exact ⟨⟨rfl, rfl, hmeasure, rfl⟩, .inl rfl, rfl⟩
  intro rung hrung
  exact (List.mem_append.mp hrung).elim (hby _ rung) (hby _ rung)

theorem rungs_ne_nil : (c.kpi filter).rungs (α := Float) ≠ [] := by
  unfold Kpi.rungs
  cases (c.kpi filter).strategy with
  | query => exact List.cons_ne_nil _ _
  | pivot => exact List.append_ne_nil_of_right_ne_nil _ (List.cons_ne_nil _ _)

/-! ## The pick -/

/-- What is asked for the pick: the least or the greatest value of the x field, under the filter of
the condition itself.  Other picks ask nothing, nor does a condition without an x field. -/
def pickRequests : List Request :=
  match c.pick, c.xField.filter (· ≠ "") with
  | .extreme extreme, some field =>
    [.aggregate
      { source := c.source
        aggregate :=
          match extreme with
          | .min | .first => .min
          | .max | .last => .max
        measure := some field
        filter := c.filter }]
  | _, _ => []

variable {σ : Type} (engine : Request → σ → Answer × σ) (s : σ) (today : Date)

theorem asked_resolve_pick :
    (c.pickContext.resolve today).asked engine s = c.pickRequests := by
  have hpick : c.pickContext.pick = c.pick := rfl
  have hfield : c.pickContext.xField = c.xField := rfl
  rw [Pick.Context.asked_resolve]
  unfold Pick.Context.request? pickRequests
  rw [hpick, hfield]
  cases c.pick with
  | extreme e =>
      cases c.xField.filter (· ≠ "") with
      | none => rfl
      | some field => cases e <;> rfl
  | _ => rfl

/-! ## The condition -/

theorem asked_evaluate :
    (c.evaluate today).asked engine s =
      let pick := (c.pickContext.resolve today).run engine s
      c.pickRequests ++ (c.outcome pick.1.filter).asked engine pick.2 := by
  unfold evaluate
  rw [Dialogue.asked_seq, Dialogue.asked_seq, Dialogue.asked_pure, List.append_nil,
    asked_resolve_pick]

theorem exists_asked_outcome :
    ∃ grouped single,
      (c.outcome filter).asked engine s = grouped ++ single ∧ grouped ++ single ≠ [] ∧
        (∀ q ∈ grouped, q.IsAbout c filter ∧ q.GroupsBy c.legend) ∧
        ∀ q ∈ single, q.IsAbout c filter ∧ q.IsSingle c.xField := by
  obtain ⟨grouped, single, rows?, hasked, hgrouped, hconcludes⟩ :=
    outcome_climbs engine s c filter
  have hsingle : ∀ q ∈ single.map (·.1), q.IsAbout c filter ∧ q.IsSingle c.xField := by
    cases rows? with
    | some rows =>
        rw [hconcludes.1]
        exact fun q hq => absurd hq List.not_mem_nil
    | none =>
        obtain ⟨x?, hclimbs, -⟩ := hconcludes
        exact hclimbs.forall_request (c.requests_rungs filter)
  have hne : grouped ++ single ≠ [] := by
    rw [ne_eq, List.append_eq_nil_iff]
    rintro ⟨rfl, rfl⟩
    obtain rfl : rows? = none := hgrouped.of_nil.2
    obtain ⟨x?, hclimbs, -⟩ := hconcludes
    exact c.rungs_ne_nil filter hclimbs.of_nil.1
  refine ⟨grouped.map (·.1), single.map (·.1), ?_, ?_,
    hgrouped.forall_request (c.requests_groupRungs filter), hsingle⟩
  · rw [← Dialogue.map_fst_exchanges, hasked, List.map_append]
  · rwa [← List.map_append, ne_eq, List.map_eq_nil_iff]

theorem asked_evaluate_ne_nil : (c.evaluate today).asked engine s ≠ [] := by
  obtain ⟨grouped, single, hasked, hne, -, -⟩ := c.exists_asked_outcome
    ((c.pickContext.resolve today).run engine s).1.filter engine
    ((c.pickContext.resolve today).run engine s).2
  rw [asked_evaluate]
  dsimp only
  rw [hasked]
  exact List.append_ne_nil_of_right_ne_nil _ hne

end Requests

/-- A fallback never changes the question.  First the pick is asked for; all other requests are
about the condition under the filter that the pick has left, whether they group by the legend fields
or ask for the single number. -/
theorem asked_evaluate_isAbout {σ : Type} (engine : Request → σ → Answer × σ) (s : σ)
    (c : ThresholdCondition) (today : Date) :
    let e := ((c.evaluate today).run engine s).1
    ∃ grouped single,
      (c.evaluate today).asked engine s = c.pickRequests ++ grouped ++ single ∧
        grouped ++ single ≠ [] ∧
        (∀ q ∈ grouped, q.IsAbout c e.pick.filter ∧ q.GroupsBy c.legend) ∧
        ∀ q ∈ single, q.IsAbout c e.pick.filter ∧ q.IsSingle c.xField := by
  intro e
  have hpick : e.pick = ((c.pickContext.resolve today).run engine s).1 :=
    congrArg ThresholdEvaluation.pick (run_evaluate engine s c today)
  obtain ⟨grouped, single, hasked, hall⟩ := c.exists_asked_outcome e.pick.filter engine
    ((c.pickContext.resolve today).run engine s).2
  refine ⟨grouped, single, ?_, hall⟩
  rw [asked_evaluate, List.append_assoc]
  dsimp only
  rw [← hpick, hasked]

end Rule.ThresholdCondition

end Alerting
