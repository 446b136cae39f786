import Alerting.Proofs.Evaluation.Outcome
/-!
# The numbers of an outcome

The number of a condition without categories is finite: one that is not counts as zero.  The values
of categories and parts, and the number that is reported for matching categories, are sums of finite
floats that nobody looks at again, so each of them is a number, but it can be infinite.
-/

namespace Alerting

open Query Rule Numeric

/-! ## Single numbers -/

theorem Kpi.isFinite_finite (x : Float) : (resolve.finite x).isFinite = true := by
  unfold resolve.finite
  by_cases h : Figure.isFinite x = true
  · rw [if_pos h]
    exact h
  · rw [if_neg h]
    decide

theorem Kpi.ensures_isFinite_resolve {rely : Request → Answer → Prop} (k : Kpi) :
    (k.resolve (α := Float)).Ensures rely (·.isFinite = true) := by
  unfold resolve
  rw [Dialogue.ensures_bind]
  apply Dialogue.ensures_of_forall
  intro x?
  cases x? with
  | ok x => exact isFinite_finite x
  | error e =>
      apply (Dialogue.ensures_bind _ _).mpr
      exact Dialogue.ensures_of_forall _ fun _ => isFinite_finite _

/-! ## Breakdowns -/

namespace Breakdown

def values (b : Breakdown) : List Float :=
  b.cards.flatMap fun card => card.value :: card.parts.map (·.value)

def sumOfCategory (rows : List GroupRow) (category : String) : Float :=
  ((rowsOf rows category).map (·.value)).foldl (· + ·) 0

def sumOfPart (rows : List GroupRow) (category label : String) : Float :=
  leftSum (((rowsOf rows category).filter (restLabel · = label)).map (·.value))

def sumOfMatches (b : Breakdown) : Float :=
  Figure.total ((b.cards.filter (·.isMatch)).map (·.value))

variable {fields : List String} {rows : List GroupRow} {threshold : Threshold} {b : Breakdown}

theorem mem_values {x : Float} :
    x ∈ b.values ↔ ∃ card ∈ b.cards, x = card.value ∨ ∃ part ∈ card.parts, x = part.value := by
  simp [values, eq_comm]

theorem GroupsBy.exists_card (h : GroupsBy fields rows b) {category : String}
    (hrows : rowsOf rows category ≠ []) : ∃ card ∈ b.cards, card.category = category := by
  obtain ⟨row, hrow⟩ := List.exists_mem_of_ne_nil _ hrows
  obtain ⟨hrow, hcategory⟩ := List.mem_filter.mp hrow
  exact List.mem_map.mp
    ((h.mem_categories_iff category).mpr ⟨row, hrow, of_decide_eq_true hcategory⟩)

/-- The values of a breakdown are finite exactly if the sums over its categories and parts are. -/
theorem GroupsBy.isFinite_values_iff (h : GroupsBy fields rows b) :
    (∀ x ∈ b.values, x.isFinite = true) ↔
      (∀ category, (sumOfCategory rows category).isFinite = true) ∧
        (2 ≤ fields.length → ∀ category label,
          (sumOfPart rows category label).isFinite = true) := by
  constructor
  · intro hfinite
    refine ⟨fun category => ?_, fun hfields category label => ?_⟩
    · by_cases hrows : rowsOf rows category = []
      · rw [sumOfCategory, hrows]
        decide
      · obtain ⟨card, hcard, rfl⟩ := h.exists_card hrows
        rw [sumOfCategory, ← h.value_eq card hcard]
        exact hfinite _ (mem_values.mpr ⟨card, hcard, .inl rfl⟩)
    · by_cases hrows : (rowsOf rows category).filter (restLabel · = label) = []
      · rw [sumOfPart, hrows]
        decide
      · obtain ⟨row, hrow⟩ := List.exists_mem_of_ne_nil _ hrows
        obtain ⟨hrow, hlabel⟩ := List.mem_filter.mp hrow
        obtain ⟨card, hcard, rfl⟩ := h.exists_card (List.ne_nil_of_mem hrow)
        obtain ⟨part, hpart, rfl⟩ := List.mem_map.mp
          ((h.mem_labels_iff hfields card hcard label).mpr ⟨row, hrow, of_decide_eq_true hlabel⟩)
        rw [sumOfPart, ← h.part_value_eq card hcard part hpart]
        exact hfinite _ (mem_values.mpr ⟨card, hcard, .inr ⟨part, hpart, rfl⟩⟩)
  · rintro ⟨hcategories, hparts⟩ x hx
    obtain ⟨card, hcard, rfl | ⟨part, hpart, rfl⟩⟩ := mem_values.mp hx
    · rw [h.value_eq card hcard]
      exact hcategories card.category
    · by_cases hfields : 2 ≤ fields.length
      · rw [h.part_value_eq card hcard part hpart]
        exact hparts hfields card.category part.label
      · rw [h.parts_eq_nil (by omega) card hcard] at hpart
        exact absurd hpart List.not_mem_nil

/-- Where a card matches, the sum over the matching ones is reported, and otherwise the first. -/
theorem kpi_of_select? {cards : List Card} {s : Selection} (h : select? cards = some s) :
    s.kpi = Figure.total ((cards.filter (·.isMatch)).map (·.value)) ∨
      cards.filter (·.isMatch) = [] ∧ ∃ top ∈ cards, s.kpi = top.value := by
  unfold select? at h
  dsimp only at h
  split at h
  · cases h
    exact .inl rfl
  · next hmatching =>
    obtain ⟨top, htop, rfl⟩ := Option.map_eq_some_iff.mp h
    exact .inr ⟨hmatching, top, List.mem_of_head? htop, rfl⟩

theorem kpi_of_ofRows? (h : ofRows? fields rows threshold = some b) :
    b.kpi = b.sumOfMatches ∨
      b.sumOfMatches = Figure.total [] ∧ ∃ top ∈ b.cards, b.kpi = top.value := by
  obtain ⟨s, hs, rfl⟩ := Option.map_eq_some_iff.mp h
  rcases kpi_of_select? hs with hkpi | ⟨hmatching, htop⟩
  · exact .inl hkpi
  · refine .inr ⟨?_, htop⟩
    unfold sumOfMatches
    dsimp only
    rw [hmatching]
    rfl

theorem isFinite_kpi_and_values_iff (h : ofRows? fields rows threshold = some b) :
    (∀ x ∈ b.kpi :: b.values, x.isFinite = true) ↔
      (∀ x ∈ b.values, x.isFinite = true) ∧ b.sumOfMatches.isFinite = true := by
  rw [List.forall_mem_cons, and_comm]
  refine and_congr_right fun hvalues => ?_
  rcases kpi_of_ofRows? h with hkpi | ⟨hsum, top, htop, hkpi⟩
  · rw [hkpi]
  · rw [hkpi, hsum]
    exact iff_of_true (hvalues _ (mem_values.mpr ⟨top, htop, .inl rfl⟩)) (by decide)

/-! ## No number is missing -/

theorem isNaN_leftSum {l : List Float} (hl : ∀ x ∈ l, x.isFinite = true) :
    (leftSum l).isNaN = false := by
  cases l with
  | nil => decide
  | cons x rest =>
      rw [List.forall_mem_cons] at hl
      exact FloatOrder.isNaN_foldl_add hl.2 (FloatOrder.isNaN_of_isFinite hl.1)

theorem isNaN_of_mem_values (hrows : ∀ row ∈ rows, row.value.isFinite = true)
    (h : ofRows? fields rows threshold = some b) {x : Float} (hx : x ∈ b.values) :
    x.isNaN = false := by
  have hgroups := groupsBy_of_ofRows? h
  obtain ⟨s, -, rfl⟩ := Option.map_eq_some_iff.mp h
  obtain ⟨card, hcard, rfl | ⟨part, hpart, rfl⟩⟩ := mem_values.mp hx
  · exact isNaN_of_mem_cardsOf hrows hcard
  · rw [hgroups.part_value_eq card hcard part hpart]
    apply isNaN_leftSum
    rw [List.forall_mem_map]
    exact fun row hrow => hrows row (List.mem_of_mem_filter (List.mem_of_mem_filter hrow))

/-- The matching cards are finite, so the sum over them is a number. -/
theorem isNaN_sumOfMatches (h : b.Agrees threshold) : b.sumOfMatches.isNaN = false := by
  apply FloatOrder.isNaN_foldl_add _ (by decide)
  rw [List.forall_mem_map]
  intro card hcard
  obtain ⟨hcard, hmatch⟩ := List.mem_filter.mp hcard
  rw [h.isMatch_eq card hcard] at hmatch
  exact isFinite_of_isMetBy hmatch

theorem isNaN_kpi (hrows : ∀ row ∈ rows, row.value.isFinite = true)
    (h : ofRows? fields rows threshold = some b) : b.kpi.isNaN = false := by
  rcases kpi_of_ofRows? h with hkpi | ⟨-, top, htop, hkpi⟩
  · rw [hkpi]
    exact isNaN_sumOfMatches (agrees_of_ofRows? hrows h)
  · rw [hkpi]
    exact isNaN_of_mem_values hrows h (mem_values.mpr ⟨top, htop, .inl rfl⟩)

end Breakdown

/-! ## Outcomes -/

namespace Outcome

def numbers (o : Outcome) : List Float :=
  o.kpi :: o.breakdown?.elim [] Breakdown.values

theorem numbers_ofBreakdown (b : Breakdown) : (ofBreakdown b).numbers = b.kpi :: b.values := by
  unfold ofBreakdown
  cases b.fires <;> rfl

theorem breakdown?_ofBreakdown (b : Breakdown) : (ofBreakdown b).breakdown? = some b := by
  unfold ofBreakdown
  cases b.fires <;> rfl

theorem numbers_ofKpi (threshold : Threshold) (kpi : Float) :
    (ofKpi threshold kpi).numbers = [kpi] := by
  unfold ofKpi
  cases threshold.isMetBy kpi <;> rfl

theorem breakdown?_ofKpi (threshold : Threshold) (kpi : Float) :
    (ofKpi threshold kpi).breakdown? = none := by
  unfold ofKpi
  cases threshold.isMetBy kpi <;> rfl

end Outcome

namespace Rule.ThresholdCondition

variable {σ : Type} (engine : Request → σ → Answer × σ)

theorem exists_run_ofKpi (threshold : Threshold) (k : Kpi) (s : σ) :
    ∃ kpi : Float, kpi.isFinite = true ∧
      ((do return .ofKpi threshold (← k.resolve) : Asking Outcome).run engine s).1 =
        .ofKpi threshold kpi := by
  have hfinite : (k.resolve (α := Float)).Ensures (fun _ _ => True) (·.isFinite = true) :=
    k.ensures_isFinite_resolve
  rw [Dialogue.run_seq]
  exact ⟨_, hfinite.run (fun _ _ => trivial) s, rfl⟩

/-- An outcome is that of a finite number, or that of a breakdown of the rows that were found. -/
theorem run_outcome_cases (c : ThresholdCondition) (filter : Filter) (s : σ) :
    (∃ kpi : Float, kpi.isFinite = true ∧
        ((c.outcome filter).run engine s).1 = .ofKpi c.threshold kpi) ∨
      ∃ rows b, ((Breakdown.firstRows (c.kpi filter) c.legend).run engine s).1 = .ok rows ∧
        Breakdown.ofRows? c.legend rows c.threshold = some b ∧
        ((c.outcome filter).run engine s).1 = .ofBreakdown b := by
  unfold outcome
  dsimp only
  split
  · rw [Breakdown.resolve?_eq, bind_assoc, Dialogue.run_seq, pure_bind]
    cases hb : Except.bind ((Breakdown.firstRows (c.kpi filter) c.legend).run engine s).1
      (Breakdown.ofAnswer (c.kpi filter).source c.legend · c.threshold) with
    | ok b =>
        obtain ⟨rows, hrows, hbreakdown⟩ := Breakdown.ofRows?_of_bind_eq_ok hb
        exact .inr ⟨rows, b, hrows, hbreakdown, rfl⟩
    | error e => exact .inl (exists_run_ofKpi engine _ _ _)
  · exact .inl (exists_run_ofKpi engine _ _ s)

/-- The numbers that a condition comes to are numbers, and a single one is finite.  Those of a
breakdown are finite exactly if the sums are: over the rows of each category, over those of each
part, and over the matching cards. -/
theorem isFinite_numbers_iff (s : σ) (c : ThresholdCondition) (today : Date) :
    let pick := (c.pickContext.resolve today).run engine s
    let o := ((c.evaluate today).run engine s).1.outcome
    let rows? := ((Breakdown.firstRows (c.kpi pick.1.filter) c.legend).run engine pick.2).1
    (∀ x ∈ o.numbers, x.isNaN = false) ∧
      match o.breakdown? with
      | none => ∀ x ∈ o.numbers, x.isFinite = true
      | some b => ∃ rows, rows? = .ok rows ∧ (∀ row ∈ rows, row.value.isFinite = true) ∧
        ((∀ x ∈ o.numbers, x.isFinite = true) ↔
          (∀ category, (Breakdown.sumOfCategory rows category).isFinite = true) ∧
          (2 ≤ c.legend.length → ∀ category label,
            (Breakdown.sumOfPart rows category label).isFinite = true) ∧
          b.sumOfMatches.isFinite = true) := by
  intro pick o rows?
  have ho : o = ((c.outcome pick.1.filter).run engine pick.2).1 :=
    congrArg ThresholdEvaluation.outcome (run_evaluate engine s c today)
  rcases run_outcome_cases engine c pick.1.filter pick.2 with
    ⟨kpi, hfinite, hkpi⟩ | ⟨rows, b, hrows, hb, hbreakdown⟩
  · rw [ho, hkpi, Outcome.numbers_ofKpi, Outcome.breakdown?_ofKpi]
    simp only [List.forall_mem_singleton]
    exact ⟨FloatOrder.isNaN_of_isFinite hfinite, hfinite⟩
  · have hcells : ∀ row ∈ rows, row.value.isFinite = true := by
      have hfirst : (Breakdown.firstRows (c.kpi pick.1.filter) c.legend).Ensures
          (fun _ _ => True) _ := Breakdown.ensures_firstRows _ _
      exact hfirst.run (fun _ _ => trivial) pick.2 rows hrows
    rw [ho, hbreakdown, Outcome.numbers_ofBreakdown, Outcome.breakdown?_ofBreakdown]
    refine ⟨?_, rows, hrows, hcells, ?_⟩
    · rw [List.forall_mem_cons]
      exact ⟨Breakdown.isNaN_kpi hcells hb, fun _ => Breakdown.isNaN_of_mem_values hcells hb⟩
    · rw [Breakdown.isFinite_kpi_and_values_iff hb,
        (Breakdown.groupsBy_of_ofRows? hb).isFinite_values_iff, and_assoc]

/-- The condition that some region sells more than ten, with its cities as parts. -/
def someRegion : ThresholdCondition :=
  { source := "sales", aggregate := .sum, measure := some "amount", comparison := .greaterThan
    value := some (.int 10), legend := ["region", "city"] }

/-- Sales in two cities of a region that are finite each, though not together. -/
def hugeSales (_ : Request) (s : Unit) : Answer × Unit :=
  let row (city : String) : List Json := [.string "east", .string city, .number (.float 1e308)]
  (.ok ⟨["region", "city", "value"], [row "harbor", row "hill"]⟩, s)

/-- The value of a category can be infinite, and so the number that is reported for it. -/
theorem not_forall_isFinite_numbers :
    ¬∀ (engine : Request → Unit → Answer × Unit) (c : ThresholdCondition) (today : Date),
      ∀ x ∈ ((c.evaluate today).run engine ()).1.outcome.numbers, x.isFinite = true := by
  intro h
  have hkpi := h hugeSales someRegion default _ List.mem_cons_self
  revert hkpi
  decide +kernel

end Rule.ThresholdCondition

end Alerting
