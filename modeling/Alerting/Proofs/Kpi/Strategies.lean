import Alerting.Kpi
import Alerting.Proofs.Dialogue
import Alerting.Proofs.Query.Table
/-!
# Two ways to one number

A flat aggregation and a cross table give the same number of a table, be it asked for as a whole or
combined from the totals over an x field, with one exception: a group without a number shows null,
which counts as the total zero, and that zero can be less than all numbers, or greater.
-/

namespace Alerting

open Query Exact

namespace Kpi

/-! ## Extremes of groups -/

/-- What the folds over totals rely on: `op` with the neutral element `e` picks an extreme of
numbers. -/
structure IsExtreme (op : Exact → Exact → Exact) (e : Exact) (pick? : List ℚ → Option ℚ) :
    Prop where
  assoc : Std.Associative op
  comm : Std.Commutative op
  neutral (x : Exact) : op e x = x
  zero_zero : op 0 0 = 0
  pick?_nil : pick? [] = none
  foldl_map (q : ℚ) (l : List ℚ) :
    ((q :: l).map ofRat).foldl op e = ofRat ((pick? (q :: l)).getD 0)

theorem isExtreme_min : IsExtreme min ⊤ List.min? where
  assoc := inferInstance
  comm := inferInstance
  neutral := top_inf_eq
  zero_zero := min_self 0
  pick?_nil := rfl
  foldl_map q l := by
    rw [List.map_cons, List.foldl_cons, top_inf_eq, List.foldl_map, List.min?_cons']
    exact List.foldl_hom ofRat fun _ _ => rfl

theorem isExtreme_max : IsExtreme max ⊥ List.max? where
  assoc := inferInstance
  comm := inferInstance
  neutral := bot_sup_eq
  zero_zero := max_self 0
  pick?_nil := rfl
  foldl_map q l := by
    rw [List.map_cons, List.foldl_cons, bot_sup_eq, List.foldl_map, List.max?_cons']
    exact List.foldl_hom ofRat fun _ _ => rfl

namespace IsExtreme

variable {op : Exact → Exact → Exact} {e : Exact} {pick? : List ℚ → Option ℚ}
  (h : IsExtreme op e pick?)
include h

theorem foldl_cons (x : Exact) (l : List Exact) : (x :: l).foldl op e = op x (l.foldl op e) := by
  have := h.assoc
  rw [List.foldl_cons, h.comm.comm, List.foldl_assoc]

theorem foldl_append (l l' : List Exact) :
    (l ++ l').foldl op e = op (l.foldl op e) (l'.foldl op e) := by
  induction l with
  | nil => exact (h.neutral _).symm
  | cons x l ih => rw [List.cons_append, h.foldl_cons, ih, h.foldl_cons, h.assoc.assoc]

theorem ofRat_pick? (l : List ℚ) :
    ofRat ((pick? l).getD 0) = if l = [] then 0 else (l.map ofRat).foldl op e := by
  cases l with
  | nil =>
      rw [h.pick?_nil, if_pos rfl]
      rfl
  | cons q l => rw [if_neg (List.cons_ne_nil q l), h.foldl_map]

/-- An empty group adds one zero to the numbers of the others. -/
theorem foldl_totals (groups : List (List ℚ)) :
    (groups.map fun g => ofRat ((pick? g).getD 0)).foldl op e =
      let whole := (groups.flatten.map ofRat).foldl op e
      if [] ∈ groups then op whole 0 else whole := by
  induction groups with
  | nil => rfl
  | cons g groups ih =>
      rw [List.map_cons, h.foldl_cons, ih, h.ofRat_pick?]
      dsimp only
      rw [List.flatten_cons, List.map_append, h.foldl_append]
      by_cases hg : g = []
      · subst hg
        rw [if_pos rfl, if_pos List.mem_cons_self, List.map_nil, List.foldl_nil, h.neutral]
        by_cases hmem : [] ∈ groups
        · rw [if_pos hmem, h.comm.comm 0, h.assoc.assoc, h.zero_zero]
        · rw [if_neg hmem, h.comm.comm]
      · have hiff : [] ∈ g :: groups ↔ [] ∈ groups := by
          rw [List.mem_cons, or_iff_right (Ne.symm hg)]
        rw [if_neg hg]
        by_cases hmem : [] ∈ groups
        · rw [if_pos hmem, if_pos (hiff.mpr hmem), h.assoc.assoc]
        · rw [if_neg hmem, if_neg (mt hiff.mp hmem)]

/-- The extreme of the totals of groups is that of all numbers, unless a group is empty. -/
theorem foldl_totals_of_perm {groups : List (List ℚ)} (hgroups : groups ≠ []) {numbers : List ℚ}
    (hperm : groups.flatten.Perm numbers) :
    (groups.map fun g => ofRat ((pick? g).getD 0)).foldl op e =
      let whole := ofRat ((pick? numbers).getD 0)
      if [] ∈ groups then op whole 0 else whole := by
  have := h.assoc
  have := h.comm
  have hwhole : (groups.flatten.map ofRat).foldl op e = (numbers.map ofRat).foldl op e :=
    (hperm.map ofRat).foldl_eq e
  rw [h.foldl_totals, hwhole, h.ofRat_pick?]
  by_cases hnumbers : numbers = []
  · -- without a number all groups are empty
    have hmem : [] ∈ groups := by
      obtain ⟨g, rest, rfl⟩ := List.exists_cons_of_ne_nil hgroups
      rw [hnumbers, List.perm_nil, List.flatten_cons, List.append_eq_nil_iff] at hperm
      rw [hperm.1]
      exact List.mem_cons_self
    rw [hnumbers, if_pos rfl]
    simp only [if_pos hmem, List.map_nil, List.foldl_nil, h.neutral, h.zero_zero]
  · rw [if_neg hnumbers]

end IsExtreme

end Kpi

/-! ## The number of a table -/

namespace Query.Table

variable {Row Label : Type} [DecidableEq Label] (t : Table Row Label)

/-- Whether the totals over the x field include one of rows without a number. -/
def HasBareGroup (k : Kpi) : Prop :=
  ∃ field, k.xField = some field ∧ field ≠ "" ∧
    ∃ row ∈ t.kept k.filter,
      t.numbers k.measure (t.group k.filter field (t.label field row)) = []

end Query.Table

/-- The figure after a zero has joined the numbers. -/
def Query.Aggregate.withZero (aggregate : Aggregate) (q : ℚ) : ℚ :=
  match aggregate with
  | min => Min.min q 0
  | max => Max.max q 0
  | _ => q

namespace Kpi

variable {Row Label : Type} [DecidableEq Label] (t : Table Row Label)

/-- What a cross table makes of the number of the table. -/
def IsByPivot (k : Kpi) (q : ℚ) : Prop :=
  (t.HasBareGroup k → q = k.aggregate.withZero (t.number k (t.kept k.filter))) ∧
    (¬t.HasBareGroup k → q = t.number k (t.kept k.filter))

variable {t} {k : Kpi}

theorem isByPivot_number (h : ¬t.HasBareGroup k ∨ k.aggregate ≠ .min ∧ k.aggregate ≠ .max) :
    IsByPivot t k (t.number k (t.kept k.filter)) := by
  refine ⟨fun hbare => ?_, fun _ => rfl⟩
  obtain ⟨hmin, hmax⟩ := h.resolve_left (not_not_intro hbare)
  unfold Aggregate.withZero
  split
  · contradiction
  · contradiction
  · rfl

theorem not_hasBareGroup_of_kept_eq_nil (h : t.kept k.filter = []) : ¬t.HasBareGroup k := by
  rintro ⟨field, -, -, row, hrow, -⟩
  rw [h] at hrow
  exact List.not_mem_nil hrow

theorem perm_flatten_numbers {field : String} {labels : List Label} (hnodup : labels.Nodup)
    (hlabels : ∀ label, label ∈ labels ↔ ∃ row ∈ t.kept k.filter, t.label field row = label)
    (measure : Option String) :
    (labels.map fun label => t.numbers measure (t.group k.filter field label)).flatten.Perm
      (t.numbers measure (t.kept k.filter)) := by
  have hcover : ∀ row ∈ t.kept k.filter, t.label field row ∈ labels := fun row hrow =>
    (hlabels _).mpr ⟨row, hrow, rfl⟩
  have hperm := (Table.perm_flatMap_filter (t.label field) hnodup hcover).filterMap
    fun row => measure.bind (t.number? · row)
  rwa [List.filterMap_flatMap, List.flatMap_def] at hperm

theorem nil_mem_numbers_iff {field : String} (hfield : k.xField = some field) (hne : field ≠ "")
    {labels : List Label}
    (hlabels : ∀ label, label ∈ labels ↔ ∃ row ∈ t.kept k.filter, t.label field row = label) :
    [] ∈ labels.map (fun label => t.numbers k.measure (t.group k.filter field label)) ↔
      t.HasBareGroup k := by
  rw [List.mem_map]
  constructor
  · rintro ⟨label, hlabel, hnil⟩
    obtain ⟨row, hrow, rfl⟩ := (hlabels label).mp hlabel
    exact ⟨field, hfield, hne, row, hrow, hnil⟩
  · rintro ⟨field', hfield', -, row, hrow, hnil⟩
    rw [hfield, Option.some_inj] at hfield'
    subst hfield'
    exact ⟨t.label field row, (hlabels _).mpr ⟨row, hrow, rfl⟩, hnil⟩

section Combine

variable {field : String} {labels : List Label}

def totals (t : Table Row Label) (k : Kpi) (field : String) (labels : List Label) : List Exact :=
  labels.map fun label =>
    ofRat (t.number k (t.group k.filter field label))

/-- The extreme of the totals is that of the table, unless a zero has joined. -/
theorem foldl_totals_groups {op : Exact → Exact → Exact} {e : Exact} {pick? : List ℚ → Option ℚ}
    (hextreme : IsExtreme op e pick?) (hover : ∀ n, k.aggregate.over n = pick?)
    (hzero : ∀ q, op (ofRat q) 0 = ofRat (k.aggregate.withZero q))
    (hmeasure : k.aggregate.measure k.measure = k.measure)
    (hfield : k.xField = some field) (hne : field ≠ "") (hlabels_ne : labels ≠ [])
    (hnodup : labels.Nodup)
    (hlabels : ∀ label, label ∈ labels ↔ ∃ row ∈ t.kept k.filter, t.label field row = label) :
    ∃ q, (totals t k field labels).foldl op e = ofRat q ∧ IsByPivot t k q := by
  have hnumber : ∀ rows, t.number k rows = (pick? (t.numbers k.measure rows)).getD 0 := by
    intro rows
    unfold Table.number Table.value?
    rw [hover, hmeasure]
  have htotals : totals t k field labels =
      (labels.map fun label => t.numbers k.measure (t.group k.filter field label)).map
        fun g => ofRat ((pick? g).getD 0) := by
    unfold totals
    rw [List.map_map]
    exact List.map_congr_left fun label _ => congrArg ofRat (hnumber _)
  have hgroups : labels.map (fun label => t.numbers k.measure (t.group k.filter field label)) ≠
      [] := mt List.map_eq_nil_iff.mp hlabels_ne
  have hfold := hextreme.foldl_totals_of_perm hgroups
    (perm_flatten_numbers hnodup hlabels k.measure)
  have hbare := nil_mem_numbers_iff hfield hne hlabels
  rw [← htotals, ← hnumber] at hfold
  by_cases h : t.HasBareGroup k
  · rw [if_pos (hbare.mpr h), hzero] at hfold
    exact ⟨_, hfold, fun _ => rfl, fun hnot => absurd h hnot⟩
  · rw [if_neg (mt hbare.mp h)] at hfold
    exact ⟨_, hfold, fun hnot => absurd hnot h, fun _ => rfl⟩

theorem foldl_lesser (l : List Exact) : l.foldl Figure.lesser Figure.infinity = l.foldl min ⊤ := by
  rw [show (Figure.lesser : Exact → Exact → Exact) = min from
    funext fun x => funext fun y => lesser_eq_min x y]
  rfl

theorem foldl_greater (l : List Exact) :
    l.foldl Figure.greater Figure.negInfinity = l.foldl max ⊥ := by
  rw [show (Figure.greater : Exact → Exact → Exact) = max from
    funext fun x => funext fun y => greater_eq_max x y]
  rfl

theorem total_totals (h : k.aggregate = .sum ∨ k.aggregate = .count) (hnodup : labels.Nodup)
    (hlabels : ∀ label, label ∈ labels ↔ ∃ row ∈ t.kept k.filter, t.label field row = label) :
    Figure.total (totals t k field labels) = ofRat (t.number k (t.kept k.filter)) := by
  have hcover : ∀ row ∈ t.kept k.filter, t.label field row ∈ labels := fun row hrow =>
    (hlabels _).mpr ⟨row, hrow, rfl⟩
  have hsum := t.sum_value?_groups (t.label field) hnodup hcover h
    (k.aggregate.measure k.measure)
  have htotals : totals t k field labels =
      (labels.map fun label => t.number k (t.group k.filter field label)).map ofRat := by
    rw [List.map_map]
    rfl
  rw [htotals, total_map_ofRat]
  exact congrArg ofRat hsum

/-- Combining totals gives the number of a cross table, or refuses. -/
theorem combine_totals (hfield : k.xField = some field) (hne : field ≠ "")
    (hnodup : labels.Nodup)
    (hlabels : ∀ label, label ∈ labels ↔ ∃ row ∈ t.kept k.filter, t.label field row = label) :
    (∃ q, combine k.aggregate (totals t k field labels) = .ok (ofRat q) ∧ IsByPivot t k q) ∨
      (k.aggregate ≠ .min ∧ k.aggregate ≠ .max) ∧
        ∃ e, combine k.aggregate (totals t k field labels) = .error e := by
  cases labels with
  | nil =>
      have hkept : t.kept k.filter = [] := by
        rw [List.eq_nil_iff_forall_not_mem]
        intro row hrow
        exact List.not_mem_nil ((hlabels _).mpr ⟨row, hrow, rfl⟩)
      have hzero : t.number k (t.kept k.filter) = 0 := by
        unfold Table.number Table.value?
        rw [hkept]
        cases k.aggregate <;> rfl
      refine .inl ⟨0, rfl, ?_⟩
      rw [← hzero]
      exact isByPivot_number (.inl (not_hasBareGroup_of_kept_eq_nil hkept))
  | cons label rest =>
      have hlabels_ne : label :: rest ≠ [] := List.cons_ne_nil label rest
      rcases k with ⟨source, aggregate, measure, filter, xField, strategy⟩
      cases aggregate with
      | sum =>
          refine .inl ⟨_, congrArg Except.ok (total_totals (.inl rfl) hnodup hlabels), ?_⟩
          exact isByPivot_number (.inr ⟨nofun, nofun⟩)
      | count =>
          refine .inl ⟨_, congrArg Except.ok (total_totals (.inr rfl) hnodup hlabels), ?_⟩
          exact isByPivot_number (.inr ⟨nofun, nofun⟩)
      | min =>
          obtain ⟨q, hq, hpivot⟩ := foldl_totals_groups isExtreme_min (fun _ => rfl)
            (fun _ => rfl) rfl hfield hne hlabels_ne hnodup hlabels
          exact .inl ⟨q, congrArg Except.ok ((foldl_lesser _).trans hq), hpivot⟩
      | max =>
          obtain ⟨q, hq, hpivot⟩ := foldl_totals_groups isExtreme_max (fun _ => rfl)
            (fun _ => rfl) rfl hfield hne hlabels_ne hnodup hlabels
          exact .inl ⟨q, congrArg Except.ok ((foldl_greater _).trans hq), hpivot⟩
      | avg => exact .inr ⟨⟨nofun, nofun⟩, _, rfl⟩
      | distinct => exact .inr ⟨⟨nofun, nofun⟩, _, rfl⟩

end Combine

/-! ## Asking -/

section Asking

variable [CellNumber Exact]

theorem ensures_byQuery (hsource : k.source = t.source) :
    (k.byQuery (α := Exact)).Ensures t.Answers
      (· = .ok (ofRat (t.number k (t.kept k.filter)))) := by
  intro answer hanswer
  obtain ⟨result, row, cell, rfl, hrows, hcell, hshows⟩ := hanswer hsource rfl rfl rfl
  change Except.ok result.scalar = _
  unfold Result.scalar
  rw [hrows]
  dsimp only
  rw [hcell]
  exact congrArg Except.ok (Table.ofCell_of_shows hshows)

theorem ensures_byPlainPivot (hsource : k.source = t.source) :
    (k.byPlainPivot (α := Exact)).Ensures t.Answers
      (· = .ok (ofRat (t.number k (t.kept k.filter)))) := by
  intro answer hanswer
  obtain ⟨result, row, cell, rfl, hrows, hcell, hshows⟩ := hanswer hsource rfl
  change Except.ok result.trailing = _
  unfold Result.trailing
  rw [hrows, List.head?_cons, Option.bind_some, hcell]
  exact congrArg Except.ok (Table.ofCell_of_shows hshows)

omit [DecidableEq Label] in
theorem filterMap_getLast?_of_shows {labels : List Label} {rows : List (List Json)}
    {value : Label → Option ℚ}
    (h : labels.Forall₂
      (fun label row => ∃ cell, row.getLast? = some cell ∧ Table.Shows cell (value label)) rows) :
    rows.filterMap (fun row => row.getLast?.map Figure.ofCell) =
      labels.map fun label => ofRat ((value label).getD 0) := by
  induction h with
  | nil => rfl
  | cons hrow _ ih =>
      obtain ⟨cell, hcell, hshows⟩ := hrow
      rw [List.filterMap_cons, hcell, Option.map_some, Table.ofCell_of_shows hshows, ih,
        List.map_cons]

theorem ensures_byWindowedPivot (hsource : k.source = t.source) (field : String) :
    (k.byWindowedPivot (α := Exact) field).Ensures t.Answers fun x? =>
      ∃ labels : List Label, labels.Nodup ∧
        (∀ label, label ∈ labels ↔ ∃ row ∈ t.kept k.filter, t.label field row = label) ∧
        x? = combine k.aggregate (totals t k field labels) := by
  intro answer hanswer
  obtain ⟨result, labels, rfl, hnodup, hlabels, hrows⟩ := hanswer hsource rfl
  exact ⟨labels, hnodup, hlabels,
    congrArg (combine k.aggregate) (filterMap_getLast?_of_shows hrows)⟩

theorem ensures_byPivot (hsource : k.source = t.source) :
    (k.byPivot (α := Exact)).Ensures t.Answers fun x? =>
      ∃ q, x? = .ok (ofRat q) ∧ IsByPivot t k q := by
  have hplain (h : ¬t.HasBareGroup k ∨ k.aggregate ≠ .min ∧ k.aggregate ≠ .max) :
      (k.byPlainPivot (α := Exact)).Ensures t.Answers fun x? =>
        ∃ q, x? = .ok (ofRat q) ∧ IsByPivot t k q :=
    (ensures_byPlainPivot hsource).mono fun _ hx => ⟨_, hx, isByPivot_number h⟩
  unfold byPivot
  cases hfilter : k.xField.filter (· ≠ "") with
  | none =>
      apply hplain
      left
      rintro ⟨field, hfield, hne, -⟩
      rw [hfield] at hfilter
      simp [hne] at hfilter
  | some field =>
      obtain ⟨hfield, hne⟩ := Option.filter_eq_some_iff.mp hfilter
      rw [decide_eq_true_eq] at hne
      dsimp only
      rw [Dialogue.ensures_bind]
      apply (ensures_byWindowedPivot hsource field).mono
      rintro _ ⟨labels, hnodup, hlabels, rfl⟩
      rcases combine_totals hfield hne hnodup hlabels with ⟨q, hq, hpivot⟩ | ⟨hextreme, e, he⟩
      · rw [hq]
        exact ⟨q, rfl, hpivot⟩
      · rw [he]
        exact hplain (.inr hextreme)

theorem ensures_resolve_of_ask {post : ℚ → Prop}
    (h : (k.ask (α := Exact) k.strategy).Ensures t.Answers fun x? =>
      ∃ q, x? = .ok (ofRat q) ∧ post q) :
    (k.resolve (α := Exact)).Ensures t.Answers fun x => ∃ q, x = ofRat q ∧ post q := by
  unfold resolve
  rw [Dialogue.ensures_bind]
  apply h.mono
  rintro _ ⟨q, rfl, hpost⟩
  exact ⟨q, rfl, hpost⟩

end Asking

theorem eq_number_iff_of_isByPivot {q : ℚ} (h : IsByPivot t k q) :
    q = t.number k (t.kept k.filter) ↔
      ¬(t.HasBareGroup k ∧ (k.aggregate = .min ∧ 0 < t.number k (t.kept k.filter) ∨
        k.aggregate = .max ∧ t.number k (t.kept k.filter) < 0)) := by
  by_cases hbare : t.HasBareGroup k
  · rw [h.1 hbare]
    unfold Aggregate.withZero
    cases k.aggregate <;> simp [hbare]
  · rw [h.2 hbare]
    simp [hbare]

theorem eq_zero_of_isByPivot {q : ℚ} (h : IsByPivot t k q)
    (hne : q ≠ t.number k (t.kept k.filter)) : q = 0 := by
  by_cases hbare : t.HasBareGroup k
  · rw [h.1 hbare] at hne ⊢
    cases haggregate : k.aggregate with
    | min =>
        rw [haggregate] at hne
        exact (min_choice _ _).resolve_left hne
    | max =>
        rw [haggregate] at hne
        exact (max_choice _ _).resolve_left hne
    | _ =>
        rw [haggregate] at hne
        exact absurd rfl hne
  · exact absurd (h.2 hbare) hne

/-- Computed exactly, the number of a table is the same by both strategies, with or without an x
field, except for a least number above zero or a greatest one below zero where the totals over the x
field include one of rows without a number: that total counts as zero. -/
theorem resolve_byPivot_eq_iff [CellNumber Exact] {σ : Type} (engine : Request → σ → Answer × σ)
    (hanswers : ∀ q s, t.Answers q (engine q s).1) (hsource : k.source = t.source) (s s' : σ) :
    let number := t.number k (t.kept k.filter)
    let byQuery := (({ k with strategy := .query } : Kpi).resolve (α := Exact)).run engine s
    let byPivot := (({ k with strategy := .pivot } : Kpi).resolve (α := Exact)).run engine s'
    byQuery.1 = ofRat number ∧
      (byPivot.1 = byQuery.1 ↔
        ¬(t.HasBareGroup k ∧
          (k.aggregate = .min ∧ 0 < number ∨ k.aggregate = .max ∧ number < 0))) ∧
      (byPivot.1 ≠ byQuery.1 → byPivot.1 = ofRat 0) := by
  intro number byQuery byPivot
  have hquery : byQuery.1 = ofRat number := by
    have hask : (({ k with strategy := .query } : Kpi).ask (α := Exact) .query).Ensures t.Answers
        fun x? => ∃ q, x? = .ok (ofRat q) ∧ q = number :=
      (ensures_byQuery hsource).mono fun _ hx => ⟨_, hx, rfl⟩
    obtain ⟨q, hq, rfl⟩ := (ensures_resolve_of_ask (k := { k with strategy := .query }) hask).run
      hanswers s
    exact hq
  obtain ⟨q, hq, hpivot⟩ := (ensures_resolve_of_ask (t := t)
    (k := { k with strategy := .pivot }) (ensures_byPivot hsource)).run hanswers s'
  have hpivot : IsByPivot t k q := hpivot
  have hq : byPivot.1 = ofRat q := hq
  rw [hquery, hq]
  refine ⟨rfl, ofRat_injective.eq_iff.trans (eq_number_iff_of_isByPivot hpivot), fun hne => ?_⟩
  rw [eq_zero_of_isByPivot hpivot (ne_of_apply_ne ofRat hne)]

def regionSales : Table (String × Option ℚ) String where
  source := "sales"
  rows := [("east", some 5), ("west", none)]
  keeps _ _ := true
  label _ row := row.1
  number? _ row := row.2

def leastSale : Kpi where
  source := "sales"
  aggregate := .min
  measure := some "amount"
  filter := ∅
  xField := some "region"
  strategy := .query

def regionEngine (q : Request) (s : Unit) : Answer × Unit :=
  (regionSales.answer fractionCell q, s)

theorem hasBareGroup_leastSale : regionSales.HasBareGroup leastSale :=
  ⟨"region", rfl, by decide, ("west", none), by decide, by decide⟩

theorem resolve_leastSale :
    letI := fractionCells
    (∀ q s, regionSales.Answers q (regionEngine q s).1) ∧ leastSale.source = regionSales.source ∧
      (({ leastSale with strategy := .query } : Kpi).resolve.run regionEngine ()).1 = ofRat 5 ∧
      (({ leastSale with strategy := .pivot } : Kpi).resolve.run regionEngine ()).1 = ofRat 0 := by
  let _ := fractionCells
  have hanswers : ∀ q s, regionSales.Answers q (regionEngine q s).1 := fun q _ =>
    regionSales.answers_answer shows_fractionCell q
  obtain ⟨hquery, hiff, hzero⟩ :=
    resolve_byPivot_eq_iff (k := leastSale) regionEngine hanswers rfl () ()
  refine ⟨hanswers, rfl, hquery, hzero fun heq => ?_⟩
  exact hiff.mp heq ⟨hasBareGroup_leastSale, .inl ⟨rfl, by decide⟩⟩

/-- The two strategies can differ: the total of the region without a number counts as zero, which is
less than five. -/
theorem not_forall_resolve_byPivot_eq :
    ¬∀ [CellNumber Exact] (t : Table (String × Option ℚ) String)
      (engine : Request → Unit → Answer × Unit),
      (∀ q s, t.Answers q (engine q s).1) → ∀ k : Kpi, k.source = t.source →
        (({ k with strategy := .pivot } : Kpi).resolve (α := Exact)).run engine () =
          (({ k with strategy := .query } : Kpi).resolve (α := Exact)).run engine () := by
  intro h
  let _ := fractionCells
  have heq := h regionSales regionEngine
    (fun q _ => regionSales.answers_answer shows_fractionCell q) leastSale rfl
  have hpivot : (({ leastSale with strategy := .pivot } : Kpi).resolve.run regionEngine ()).1 =
      ofRat 0 := by decide +kernel
  have hquery : (({ leastSale with strategy := .query } : Kpi).resolve.run regionEngine ()).1 =
      ofRat 5 := by decide +kernel
  have hfive : ofRat 0 = ofRat 5 := hpivot.symm.trans ((congrArg Prod.fst heq).trans hquery)
  exact absurd (ofRat_injective hfive) (by decide)

end Kpi

end Alerting
