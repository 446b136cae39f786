import Alerting.Proofs.Breakdown.Reading
import Alerting.Proofs.Evaluation.Outcome
import Alerting.Proofs.Pick.Resolution
/-!
# The ladder of requests

A condition can ask in several ways for what it compares, one after the other.  The ways are the
rungs of a ladder: a rung is stepped on only if no answer before it was usable, and the first usable
answer ends the climb.
-/

namespace Alerting

open Query Rule

namespace Query

structure Rung (β : Type) where
  request : Request
  read? : Answer → Option β

/-- Steps on one rung after the other until an answer is usable. -/
def climb {β : Type} : List (Rung β) → Asking (Option β)
  | [] => return none
  | rung :: rest => do
    match rung.read? (← .put rung.request) with
    | some x => return some x
    | none => climb rest

/-- What is asked and answered on a ladder, and what the climb comes to. -/
inductive Climbs {β : Type} : List (Rung β) → List ((_ : Request) × Answer) → Option β → Prop
  | leaves : Climbs [] [] none
  | stays {rung : Rung β} {rest : List (Rung β)} {answer : Answer} {x : β}
      (husable : rung.read? answer = some x) :
      Climbs (rung :: rest) [⟨rung.request, answer⟩] (some x)
  | steps {rung : Rung β} {rest : List (Rung β)} {answer : Answer}
      {es : List ((_ : Request) × Answer)} {x? : Option β}
      (hunusable : rung.read? answer = none) (hrest : Climbs rest es x?) :
      Climbs (rung :: rest) (⟨rung.request, answer⟩ :: es) x?

section Climbing

variable {β σ : Type} {rungs rungs' : List (Rung β)} {es : List ((_ : Request) × Answer)}

/-- A climb asks the requests of the first rungs, and of no others. -/
theorem Climbs.requests_prefix {x? : Option β} (h : Climbs rungs es x?) :
    es.map (·.1) <+: rungs.map (·.request) := by
  induction h with
  | leaves => exact List.prefix_rfl
  | stays => exact List.prefix_append [_] _
  | steps _ _ ih => exact (List.prefix_cons_inj _).mpr ih

theorem Climbs.length_le {x? : Option β} (h : Climbs rungs es x?) :
    es.length ≤ rungs.length := by
  have hprefix := h.requests_prefix.length_le
  rwa [List.length_map, List.length_map] at hprefix

/-- What holds of the requests of a ladder holds of those that are made. -/
theorem Climbs.forall_request {x? : Option β} (h : Climbs rungs es x?) {p : Request → Prop}
    (hp : ∀ rung ∈ rungs, p rung.request) : ∀ q ∈ es.map (·.1), p q := by
  intro q hq
  obtain ⟨rung, hrung, rfl⟩ := List.mem_map.mp (h.requests_prefix.subset hq)
  exact hp rung hrung

theorem Climbs.of_nil {x? : Option β} (h : Climbs rungs [] x?) : rungs = [] ∧ x? = none := by
  cases h
  exact ⟨rfl, rfl⟩

theorem Climbs.exists_read? {x : β} (h : Climbs rungs es (some x)) :
    ∃ rung ∈ rungs, ∃ answer, rung.read? answer = some x := by
  generalize hx : some x = x? at h
  induction h with
  | leaves => cases hx
  | @stays rung rest answer y husable =>
      exact ⟨rung, List.mem_cons_self, answer, hx ▸ husable⟩
  | steps _ _ ih =>
      obtain ⟨rung, hrung, hread⟩ := ih hx
      exact ⟨rung, List.mem_cons_of_mem _ hrung, hread⟩

theorem climb_cons (rung : Rung β) (rest : List (Rung β)) :
    climb (rung :: rest) = .ask rung.request fun answer =>
      match rung.read? answer with
      | some x => return some x
      | none => climb rest :=
  rfl

theorem climbs_climb (engine : Request → σ → Answer × σ) (rungs : List (Rung β)) (s : σ) :
    Climbs rungs ((climb rungs).exchanges engine s) ((climb rungs).run engine s).1 := by
  induction rungs generalizing s with
  | nil => exact .leaves
  | cons rung rest ih =>
      rw [climb_cons, Dialogue.exchanges, Dialogue.run]
      split
      · next x husable => exact .stays husable
      · next hunusable => exact .steps hunusable (ih _)

theorem climb_append (rungs rungs' : List (Rung β)) :
    climb (rungs ++ rungs') = (do
      match ← climb rungs with
      | some x => return some x
      | none => climb rungs') := by
  induction rungs with
  | nil => rfl
  | cons rung rest ih =>
      rw [List.cons_append, climb, climb, bind_assoc]
      refine bind_congr fun answer => ?_
      cases rung.read? answer with
      | some x => rfl
      | none => exact ih

section Reading

variable {ε : Type} {d d' : Asking (Except ε β)} {next : Except ε β → Asking (Except ε β)}

/-- Falling back on another way to ask goes on with its ladder. -/
theorem toOption_fallback (hd : Except.toOption <$> d = climb rungs)
    (hd' : Except.toOption <$> d' = climb rungs') (hok : ∀ x, next (.ok x) = pure (.ok x))
    (herror : ∀ e, next (.error e) = d') :
    Except.toOption <$> (d >>= next) = climb (rungs ++ rungs') := by
  rw [climb_append, ← hd, ← hd', map_bind, bind_map_left]
  refine bind_congr fun x? => ?_
  cases x? with
  | ok x =>
      rw [hok]
      rfl
  | error e =>
      rw [herror]
      rfl

theorem toOption_put (rung : Rung β) (read : Answer → Asking (Except ε β))
    (hread : ∀ answer, Except.toOption <$> read answer = pure (rung.read? answer)) :
    Except.toOption <$> (Dialogue.put rung.request >>= read) = climb [rung] := by
  rw [climb, map_bind]
  refine bind_congr fun answer => ?_
  rw [hread]
  cases rung.read? answer <;> rfl

end Reading

end Climbing

end Query

variable {α : Type} [Figure α] [CellNumber α]

/-! ## Rows -/

namespace Breakdown

def rung (k : Kpi) (fields : List String) (strategy : Strategy) : Rung (List (GroupRow α)) where
  request :=
    match strategy with
    | .query => .aggregate
        { source := k.source, aggregate := k.aggregate, measure := k.aggregate.measure k.measure
          filter := k.filter, legend := fields.head?, groupBy := fields }
    | .pivot => .pivot
        { source := k.source, rows := fields, valueField := k.aggregate.measure k.measure
          aggregate := k.aggregate, filter := k.filter }
  read? answer :=
    match answer with
    | .ok result =>
      if result.rows.all (·.isEmpty) then none else some (readRows result fields)
    | .error _ => none

theorem ne_nil_of_read? {k : Kpi} {fields : List String} {strategy : Strategy} {answer : Answer}
    {rows : List (GroupRow α)} (h : (rung k fields strategy).read? answer = some rows) :
    rows ≠ [] := by
  rintro rfl
  cases answer with
  | error failure => cases h
  | ok result =>
      unfold rung at h
      dsimp only at h
      split at h
      · cases h
      · next hrows =>
        rw [← isEmpty_readRows (α := α) result fields, Option.some.inj h] at hrows
        exact hrows rfl

theorem toOption_askRows (k : Kpi) (fields : List String) (strategy : Strategy) :
    Except.toOption <$> askRows (α := α) k fields strategy = climb [rung k fields strategy] := by
  have hread (result : Result) :
      (if (readRows (α := α) result fields).isEmpty then .error (.emptyResult k.source)
        else .ok (readRows result fields) : Except ResolveError (List (GroupRow α))).toOption =
        (rung k fields strategy).read? (.ok result) := by
    unfold rung
    dsimp only
    rw [isEmpty_readRows]
    cases result.rows.all (·.isEmpty) <;> rfl
  unfold askRows
  cases strategy with
  | query =>
      refine toOption_put (rung k fields .query) _ fun answer => ?_
      cases answer with
      | error failure => rfl
      | ok result => exact congrArg Dialogue.done (hread result)
  | pivot =>
      refine toOption_put (rung k fields .pivot) _ fun answer => ?_
      cases answer with
      | error failure => rfl
      | ok result => exact congrArg Dialogue.done (hread result)

def rungs (k : Kpi) (fields : List String) : List (Rung (List GroupRow)) :=
  [rung k fields k.strategy, rung k fields k.strategy.other]

theorem toOption_firstRows (k : Kpi) (fields : List String) :
    Except.toOption <$> firstRows k fields = climb (rungs k fields) :=
  toOption_fallback (toOption_askRows k fields k.strategy)
    (toOption_askRows k fields k.strategy.other) (fun _ => rfl) fun _ => rfl

theorem toOption_resolve? (k : Kpi) (fields : List String) (threshold : Threshold) :
    Except.toOption <$> resolve? k fields threshold =
      (·.bind (ofRows? fields · threshold)) <$> climb (rungs k fields) := by
  rw [← toOption_firstRows, resolve?_eq, map_bind, Functor.map_map, map_eq_pure_bind]
  refine bind_congr fun rows? => ?_
  rw [map_pure]
  cases rows? with
  | error e => rfl
  | ok rows => exact congrArg pure (toOption_ofAnswer fields k.source rows threshold)

end Breakdown

/-! ## Numbers -/

namespace Kpi

def flatRung (k : Kpi) : Rung α where
  request := .aggregate
    { source := k.source, aggregate := k.aggregate, measure := k.aggregate.measure k.measure
      filter := k.filter }
  read? answer := answer.toOption.map Result.scalar

def plainRung (k : Kpi) : Rung α where
  request := .pivot
    { source := k.source, rows := [], valueField := k.aggregate.measure k.measure
      aggregate := k.aggregate, filter := k.filter }
  read? answer := answer.toOption.map Result.trailing

/-- The number combined from the totals of a cross table over a field, if they can be combined. -/
def windowRung (k : Kpi) (field : String) : Rung α where
  request := .pivot
    { source := k.source, rows := [field], valueField := k.aggregate.measure k.measure
      aggregate := k.aggregate, filter := k.filter }
  read? answer := answer.toOption.bind fun result =>
    (combine k.aggregate (result.rows.filterMap fun row => row.getLast?.map Figure.ofCell)).toOption

def pivotRungs (k : Kpi) : List (Rung α) :=
  match k.xField.filter (· ≠ "") with
  | none => [k.plainRung]
  | some field => [k.windowRung field, k.plainRung]

def rungsBy (k : Kpi) : Strategy → List (Rung α)
  | .query => [k.flatRung]
  | .pivot => k.pivotRungs

def rungs (k : Kpi) : List (Rung α) :=
  k.rungsBy k.strategy ++ k.rungsBy k.strategy.other

theorem length_pivotRungs_le (k : Kpi) : (k.pivotRungs (α := α)).length ≤ 2 := by
  unfold pivotRungs
  split
  · exact Nat.le_succ 1
  · exact Nat.le_refl 2

theorem length_rungs_le (k : Kpi) : (k.rungs (α := α)).length ≤ 3 := by
  have hpivot := k.length_pivotRungs_le (α := α)
  unfold rungs
  rw [List.length_append]
  cases k.strategy with
  | query => exact Nat.add_le_add_left hpivot 1
  | pivot => exact Nat.add_le_add_right hpivot 1

theorem toOption_byQuery (k : Kpi) :
    Except.toOption <$> k.byQuery (α := α) = climb [k.flatRung] := by
  refine toOption_put k.flatRung _ fun answer => ?_
  cases answer <;> rfl

theorem toOption_byPlainPivot (k : Kpi) :
    Except.toOption <$> k.byPlainPivot (α := α) = climb [k.plainRung] := by
  refine toOption_put k.plainRung _ fun answer => ?_
  cases answer <;> rfl

theorem toOption_byWindowedPivot (k : Kpi) (field : String) :
    Except.toOption <$> k.byWindowedPivot (α := α) field = climb [k.windowRung field] := by
  refine toOption_put (k.windowRung field) _ fun answer => ?_
  cases answer <;> rfl

theorem toOption_byPivot (k : Kpi) :
    Except.toOption <$> k.byPivot (α := α) = climb k.pivotRungs := by
  unfold byPivot pivotRungs
  cases k.xField.filter (· ≠ "") with
  | none => exact k.toOption_byPlainPivot
  | some field =>
      exact toOption_fallback (k.toOption_byWindowedPivot field) k.toOption_byPlainPivot
        (fun _ => rfl) fun _ => rfl

theorem toOption_ask (k : Kpi) (strategy : Strategy) :
    Except.toOption <$> k.ask (α := α) strategy = climb (k.rungsBy strategy) := by
  cases strategy with
  | query => exact k.toOption_byQuery
  | pivot => exact k.toOption_byPivot

theorem resolve_eq (k : Kpi) :
    k.resolve (α := α) = (fun x? => resolve.finite (x?.getD 0)) <$> climb k.rungs := by
  rw [rungs, climb_append, ← toOption_ask, ← toOption_ask, map_bind, bind_map_left]
  refine bind_congr fun x? => ?_
  cases x? with
  | ok x => rfl
  | error e =>
      dsimp only [Except.toOption]
      rw [Functor.map_map]
      rfl

end Kpi

/-! ## Conditions -/

namespace Rule.ThresholdCondition

def groupRungs (c : ThresholdCondition) (filter : Filter) : List (Rung (List GroupRow)) :=
  if Breakdown.isActive c.legend filter then Breakdown.rungs (c.kpi filter) c.legend else []

def conclude (c : ThresholdCondition) (filter : Filter) : Option Breakdown → Asking Outcome
  | some b => return .ofBreakdown b
  | none => do
    let x? ← climb (c.kpi filter).rungs
    return .ofKpi c.threshold (Kpi.resolve.finite (x?.getD 0))

theorem conclude_none (c : ThresholdCondition) (filter : Filter) :
    c.conclude filter none = .ofKpi c.threshold <$> (c.kpi filter).resolve := by
  rw [conclude, Kpi.resolve_eq, Functor.map_map]
  rfl

theorem outcome_eq (c : ThresholdCondition) (filter : Filter) :
    c.outcome filter = climb (c.groupRungs filter) >>= fun rows? =>
      c.conclude filter (rows?.bind (Breakdown.ofRows? c.legend · c.threshold)) := by
  unfold outcome groupRungs
  dsimp only
  split
  · have hrows := Breakdown.toOption_resolve? (c.kpi filter) c.legend c.threshold
    rw [← bind_map_left (m := Asking) (fun rows? : Option (List GroupRow) =>
      rows?.bind (Breakdown.ofRows? c.legend · c.threshold)), ← hrows, bind_map_left]
    refine bind_congr fun b? => ?_
    cases b? with
    | ok b => rfl
    | error e => exact (c.conclude_none filter).symm
  · exact (c.conclude_none filter).symm

theorem length_groupRungs_le (c : ThresholdCondition) (filter : Filter) :
    (c.groupRungs filter).length ≤ 2 := by
  unfold groupRungs
  split
  · exact Nat.le_refl 2
  · exact Nat.zero_le 2

theorem ofRows?_ne_none_of_climbs {c : ThresholdCondition} {filter : Filter}
    {es : List ((_ : Request) × Answer)} {rows : List GroupRow}
    (h : Climbs (c.groupRungs filter) es (some rows)) :
    Breakdown.ofRows? c.legend rows c.threshold ≠ none := by
  obtain ⟨rung, hrung, answer, hread⟩ := h.exists_read?
  have hrows : rows ≠ [] := by
    unfold groupRungs at hrung
    split at hrung
    · rcases List.mem_pair.mp hrung with rfl | rfl
      · exact Breakdown.ne_nil_of_read? hread
      · exact Breakdown.ne_nil_of_read? hread
    · cases hrung
  exact mt Breakdown.ofRows?_eq_none_iff.mp hrows

/-- What a condition still asks and comes to when the ladder to grouped rows is behind it: rows
alone decide, and without them the ladder to a single number does, in which a number that is not
finite counts as zero. -/
def Concludes (c : ThresholdCondition) (filter : Filter) (rows? : Option (List GroupRow))
    (asked : List ((_ : Request) × Answer)) (outcome : Outcome) : Prop :=
  match rows? with
  | some rows =>
    asked = [] ∧
      ∃ b, Breakdown.ofRows? c.legend rows c.threshold = some b ∧ outcome = .ofBreakdown b
  | none =>
    ∃ x? : Option Float, Climbs (c.kpi filter).rungs asked x? ∧
      outcome = .ofKpi c.threshold
        (match x? with
          | some x => if x.isFinite then x else 0
          | none => 0)

theorem Concludes.length_le {c : ThresholdCondition} {filter : Filter}
    {rows? : Option (List GroupRow)} {asked : List ((_ : Request) × Answer)} {outcome : Outcome}
    (h : c.Concludes filter rows? asked outcome) : asked.length ≤ 3 := by
  cases rows? with
  | some rows =>
      rw [h.1]
      exact Nat.zero_le 3
  | none =>
      obtain ⟨x?, hclimbs, -⟩ := h
      exact hclimbs.length_le.trans (c.kpi filter).length_rungs_le

theorem concludes_conclude {σ : Type} (engine : Request → σ → Answer × σ) (s : σ)
    (c : ThresholdCondition) (filter : Filter) {rows? : Option (List GroupRow)}
    (hrows : ∀ rows, rows? = some rows → Breakdown.ofRows? c.legend rows c.threshold ≠ none) :
    let last := c.conclude filter (rows?.bind (Breakdown.ofRows? c.legend · c.threshold))
    c.Concludes filter rows? (last.exchanges engine s) (last.run engine s).1 := by
  intro last
  cases rows? with
  | some rows =>
      obtain ⟨b, hb⟩ := Option.ne_none_iff_exists'.mp (hrows rows rfl)
      have hlast : last = pure (.ofBreakdown b) := congrArg (c.conclude filter) hb
      rw [hlast]
      exact ⟨rfl, b, hb, rfl⟩
  | none =>
      have hlast : last = (do
          let x? ← climb (c.kpi filter).rungs
          return .ofKpi c.threshold (Kpi.resolve.finite (x?.getD 0))) := rfl
      have hclimbs := climbs_climb engine ((c.kpi filter).rungs (α := Float)) s
      rw [hlast, Dialogue.exchanges_seq, Dialogue.exchanges_pure, List.append_nil,
        Dialogue.run_seq, Dialogue.run_pure]
      refine ⟨_, hclimbs, congrArg (Outcome.ofKpi c.threshold) ?_⟩
      cases ((climb ((c.kpi filter).rungs (α := Float))).run engine s).1 <;> rfl

/-- A condition asks its ladder to grouped rows and then, if it found none, its ladder to a single
number. -/
theorem outcome_climbs {σ : Type} (engine : Request → σ → Answer × σ) (s : σ)
    (c : ThresholdCondition) (filter : Filter) :
    ∃ grouped single rows?,
      (c.outcome filter).exchanges engine s = grouped ++ single ∧
        Climbs (c.groupRungs filter) grouped rows? ∧
        c.Concludes filter rows? single ((c.outcome filter).run engine s).1 := by
  have hclimbs := climbs_climb engine (c.groupRungs filter) s
  rw [outcome_eq, Dialogue.exchanges_seq, Dialogue.run_seq]
  refine ⟨_, _, _, rfl, hclimbs, concludes_conclude engine _ c filter fun rows hrows => ?_⟩
  rw [hrows] at hclimbs
  exact ofRows?_ne_none_of_climbs hclimbs

/-- A condition asks at most once for its pick, and then climbs its ladders: to grouped rows if
categories are used, and to a single number if no rows are found. -/
theorem evaluate_climbs {σ : Type} (engine : Request → σ → Answer × σ) (s : σ)
    (c : ThresholdCondition) (today : Date) :
    let pick := ((c.pickContext.resolve today).run engine s).1
    let picked := (c.pickContext.resolve today).exchanges engine s
    let asked := (c.evaluate today).exchanges engine s
    ∃ grouped single rows?,
      asked = picked ++ grouped ++ single ∧
        picked.length ≤ 1 ∧ grouped.length ≤ 2 ∧ single.length ≤ 3 ∧
        asked.length ≤ 1 + 2 + 3 ∧
        Climbs (c.groupRungs pick.filter) grouped rows? ∧
        c.Concludes pick.filter rows? single ((c.evaluate today).run engine s).1.outcome := by
  intro pick picked asked
  obtain ⟨grouped, single, rows?, houtcome, hgrouped, hsingle⟩ := outcome_climbs engine
    ((c.pickContext.resolve today).run engine s).2 c pick.filter
  have hasked : asked = picked ++ grouped ++ single := by
    rw [List.append_assoc, ← houtcome]
    change (c.evaluate today).exchanges engine s = _
    unfold evaluate
    rw [Dialogue.exchanges_seq, Dialogue.exchanges_seq, Dialogue.exchanges_pure, List.append_nil]
  have hpicked : picked.length ≤ 1 :=
    c.pickContext.length_exchanges_resolve_le engine s today
  have hgrouped_length : grouped.length ≤ 2 :=
    hgrouped.length_le.trans (c.length_groupRungs_le pick.filter)
  have hsingle_length : single.length ≤ 3 := hsingle.length_le
  have htotal : asked.length ≤ 1 + 2 + 3 := by
    rw [hasked, List.length_append, List.length_append]
    omega
  rw [run_evaluate]
  exact ⟨grouped, single, rows?, hasked, hpicked, hgrouped_length, hsingle_length, htotal,
    hgrouped, hsingle⟩

end Rule.ThresholdCondition

end Alerting
