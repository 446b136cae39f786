import Alerting.Proofs.Breakdown.Groups
import Alerting.Proofs.Dialogue
import Alerting.Proofs.Query.Grouping
/-!
# Breakdowns with parts

An engine that groups by more fields answers one row for each combination of labels, and the value
of a category is the sum over its rows.  So parts add detail to a category where its figure is the
sum of the figures of its parts, which is true of sums and counts.
-/

namespace Alerting

open Query Exact

namespace Breakdown

variable {Row : Type} {t : Table Row String} {k : Kpi}

def groupRow (t : Table Row String) (k : Kpi) (fields tuple : List String) : GroupRow Exact :=
  { labels := tuple
    value := ofRat (t.number k ((t.kept k.filter).filter (t.labels fields · = tuple))) }

section Reading

theorem ne_nil_of_valueCell {result : Result} {row : List Json} {cell : Json}
    (h : (result.cell? "value" row).or row.getLast? = some cell) : row ≠ [] := by
  rintro rfl
  unfold Result.cell? at h
  cases hindex : result.columnIndex? "value" <;> simp [hindex] at h

theorem map_labelOf_of_showsLabels {result : Result} {fields labels : List String}
    {row : List Json} (h : result.ShowsLabels fields labels row) :
    (fields.zipIdx.map fun (field, position) =>
      labelOf row[(result.columnIndex? field).getD position]?) = labels := by
  unfold Result.ShowsLabels at h
  generalize fields.zipIdx = places at h
  induction h with
  | nil => rfl
  | cons hlabel _ ih =>
      obtain ⟨cell, hcell, hdisplay, hblank⟩ := hlabel
      rw [List.map_cons, ih]
      dsimp only
      rw [hcell]
      change (if Text.isBlankText cell.display then blankLabel else cell.display) :: _ = _
      rw [hdisplay, hblank]
      rfl

variable [CellNumber Exact]

theorem readRows_of_forall₂ {result : Result} {fields : List String} {tuples : List (List String)}
    {value : List String → Option ℚ}
    (h : tuples.Forall₂ (fun tuple row => result.ShowsLabels fields tuple row ∧
      ∃ cell, (result.cell? "value" row).or row.getLast? = some cell ∧
        Table.Shows cell (value tuple)) result.rows) :
    readRows result fields = tuples.map fun tuple =>
      (⟨tuple, ofRat ((value tuple).getD 0)⟩ : GroupRow Exact) := by
  unfold readRows
  generalize result.rows = rows at h
  induction h with
  | nil => rfl
  | @cons tuple row _ _ hrow _ ih =>
      obtain ⟨hlabels, cell, hcell, hshows⟩ := hrow
      have hne : row ≠ [] := ne_nil_of_valueCell hcell
      rw [List.filter_cons_of_pos (by simp [hne]), List.map_cons, List.map_cons, ih,
        map_labelOf_of_showsLabels hlabels, ← Table.ofCell_of_shows hshows]
      cases hvalue : result.cell? "value" row with
      | some cell' =>
          rw [hvalue, Option.some_or, Option.some_inj] at hcell
          rw [hcell]
      | none =>
          rw [hvalue, Option.none_or] at hcell
          rw [hcell]
          rfl

/-- Whether these are the aggregated rows of the table. -/
def IsGroupedRows (t : Table Row String) (k : Kpi) (fields : List String)
    (rows : List (GroupRow Exact)) : Prop :=
  ∃ tuples : List (List String), tuples.Nodup ∧
    (∀ tuple, tuple ∈ tuples ↔ ∃ row ∈ t.kept k.filter, t.labels fields row = tuple) ∧
    rows = tuples.map (groupRow t k fields)

theorem ensures_askRows_table (hsource : k.source = t.source) {fields : List String}
    (hfields : fields ≠ []) (strategy : Strategy) :
    (askRows k fields strategy).Ensures t.AnswersGroups
      fun rows? : Except ResolveError (List (GroupRow Exact)) =>
        ∃ rows, IsGroupedRows t k fields rows ∧
          rows? = if rows.isEmpty then .error (.emptyResult k.source) else .ok rows := by
  have hread : ∀ answer,
      t.IsGrouped k.aggregate (k.aggregate.measure k.measure) k.filter fields answer →
        ∃ result, answer = .ok result ∧
          IsGroupedRows t k fields (readRows (α := Exact) result fields) := by
    rintro _ ⟨result, tuples, rfl, hnodup, htuples, hrows⟩
    exact ⟨result, rfl, tuples, hnodup, htuples, readRows_of_forall₂ hrows⟩
  unfold askRows
  cases strategy with
  | query =>
      rw [Dialogue.ensures_bind]
      intro answer hanswer
      obtain ⟨result, rfl, hrows⟩ := hread answer (hanswer hsource hfields rfl rfl)
      exact ⟨_, hrows, rfl⟩
  | pivot =>
      rw [Dialogue.ensures_bind]
      intro answer hanswer
      obtain ⟨result, rfl, hrows⟩ := hread answer (hanswer hsource hfields rfl)
      exact ⟨_, hrows, rfl⟩

end Reading

/-! ## Outlines -/

/-- What is compared of a card: its category, its value, and whether it matches. -/
def Card.outline {α : Type} (card : Card α) : String × α × Bool :=
  (card.category, card.value, card.isMatch)

def outlines (threshold : Threshold Exact) (categories : List String) (value : String → ℚ) :
    List (String × Exact × Bool) :=
  (categories.map fun c => (c, ofRat (value c), threshold.isMetBy (ofRat (value c)))).mergeSort
    fun a b => precedes a.2.1 a.1 b.2.1 b.1

section Outlines

variable {fields : List String} {rows : List (GroupRow Exact)} {threshold : Threshold Exact}
  {categories : List String} {value value' : String → ℚ}

theorem mem_outlines {c : String} {x : Exact} {isMatch : Bool} :
    (c, x, isMatch) ∈ outlines threshold categories value ↔
      c ∈ categories ∧ x = ofRat (value c) ∧ isMatch = threshold.isMetBy x := by
  unfold outlines
  rw [List.mem_mergeSort, List.mem_map]
  constructor
  · rintro ⟨d, hd, heq⟩
    cases heq
    exact ⟨hd, rfl, rfl⟩
  · rintro ⟨hc, rfl, rfl⟩
    exact ⟨c, hc, rfl⟩

theorem length_outlines : (outlines threshold categories value).length = categories.length := by
  unfold outlines
  rw [List.length_mergeSort, List.length_map]

theorem mem_map_outline_cardsOf {c : String} {x : Exact} {isMatch : Bool} :
    (c, x, isMatch) ∈ (cardsOf fields rows threshold).map Card.outline ↔
      sumOf? (rows.filter (categoryOf · = c)) = some x ∧ isMatch = threshold.isMetBy x := by
  rw [← exists_group_iff fields]
  unfold cardsOf
  rw [List.mem_map]
  constructor
  · rintro ⟨card, hcard, houtline⟩
    rw [List.mem_mergeSort, List.mem_map] at hcard
    obtain ⟨g, hg, rfl⟩ := hcard
    cases houtline
    exact ⟨⟨g, hg, rfl, rfl⟩, rfl⟩
  · rintro ⟨⟨g, hg, rfl, rfl⟩, rfl⟩
    exact ⟨g.card threshold, List.mem_mergeSort.mpr (List.mem_map_of_mem hg), rfl⟩

theorem nodup_categories_outlines (hnodup : categories.Nodup) :
    ((outlines threshold categories value).map Prod.fst).Nodup := by
  unfold outlines
  rw [((List.mergeSort_perm _ _).map _).nodup_iff, List.map_map]
  change (categories.map fun c => c).Nodup
  rwa [List.map_id']

theorem pairwise_outlines : (outlines threshold categories value).Pairwise fun a b =>
    precedes a.2.1 a.1 b.2.1 b.1 = true :=
  pairwise_mergeSort_precedes (fun a : String × Exact × Bool => a.2.1) Prod.fst _

/-- The cards are determined by the sum over the rows of each category. -/
theorem map_outline_cardsOf (fields : List String) (threshold : Threshold Exact)
    (hnodup : categories.Nodup)
    (h : ∀ c, sumOf? (rows.filter (categoryOf · = c)) =
      if c ∈ categories then some (ofRat (value c)) else none) :
    (cardsOf fields rows threshold).map Card.outline = outlines threshold categories value := by
  have hmem : ∀ a, a ∈ (cardsOf fields rows threshold).map Card.outline ↔
      a ∈ outlines threshold categories value := by
    rintro ⟨c, x, isMatch⟩
    rw [mem_map_outline_cardsOf, mem_outlines, h]
    by_cases hc : c ∈ categories
    · rw [if_pos hc, Option.some_inj]
      simp only [hc, true_and, eq_comm]
    · rw [if_neg hc]
      simp [hc]
  refine eq_of_pairwise_precedes ?_ pairwise_outlines ?_ (nodup_categories_outlines hnodup) hmem
  · rw [List.pairwise_map]
    exact pairwise_cardsOf fields rows threshold
  · rw [List.map_map]
    exact nodup_categories_cardsOf fields rows threshold

theorem outlines_eq_iff :
    outlines threshold categories value = outlines threshold categories value' ↔
      ∀ c ∈ categories, value c = value' c := by
  constructor
  · intro h c hc
    have hmem : (c, ofRat (value c), threshold.isMetBy (ofRat (value c))) ∈
        outlines threshold categories value := mem_outlines.mpr ⟨hc, rfl, rfl⟩
    rw [h, mem_outlines] at hmem
    exact ofRat_injective hmem.2.1
  · intro h
    unfold outlines
    congr 1
    exact List.map_congr_left fun c hc => by rw [h c hc]

end Outlines

/-! ## Parts -/

section Parts

variable {field : String} {others : List String}

theorem filter_labels_cons (category : String) (rest : List String) :
    (t.kept k.filter).filter (t.labels (field :: others) · = category :: rest) =
      (t.group k.filter field category).filter (t.labels others · = rest) := by
  unfold Table.group
  rw [List.filter_filter]
  apply List.filter_congr
  intro row _
  change decide (t.label field row :: t.labels others row = category :: rest) = _
  simp [and_comm]

theorem sumOf?_map_groupRow {fields : List String} (tuples : List (List String)) :
    sumOf? (tuples.map (groupRow t k fields)) =
      if tuples = [] then none
      else some (ofRat (tuples.map fun tuple =>
        t.number k ((t.kept k.filter).filter (t.labels fields · = tuple))).sum) := by
  cases tuples with
  | nil => rfl
  | cons tuple rest =>
      rw [if_neg (List.cons_ne_nil tuple rest), ← total_map_ofRat]
      unfold Figure.total
      rw [List.map_map, List.foldl_map]
      change some (List.foldl _ _ ((tuple :: rest).map _)) = _
      rw [List.foldl_map]
      rfl

theorem perm_filter_headD {tuples : List (List String)} (hnodup : tuples.Nodup)
    (htuples : ∀ tuple, tuple ∈ tuples ↔
      ∃ row ∈ t.kept k.filter, t.labels (field :: others) row = tuple) (category : String) :
    (tuples.filter (·.headD blankLabel = category)).Perm
      (((t.group k.filter field category).map (t.labels others)).dedup.map (category :: ·)) := by
  rw [List.perm_ext_iff_of_nodup (hnodup.filter _)
    ((List.nodup_dedup _).map (List.cons_injective))]
  intro tuple
  rw [List.mem_filter, htuples, List.mem_map]
  constructor
  · rintro ⟨⟨row, hrow, rfl⟩, hhead⟩
    have hlabel : t.label field row = category := of_decide_eq_true hhead
    refine ⟨t.labels others row, ?_, by rw [← hlabel]; rfl⟩
    rw [List.mem_dedup]
    exact List.mem_map_of_mem (List.mem_filter.mpr ⟨hrow, decide_eq_true hlabel⟩)
  · rintro ⟨rest, hrest, rfl⟩
    rw [List.mem_dedup, List.mem_map] at hrest
    obtain ⟨row, hrow, rfl⟩ := hrest
    obtain ⟨hrow, hlabel⟩ := List.mem_filter.mp hrow
    refine ⟨⟨row, hrow, ?_⟩, by simp⟩
    rw [← of_decide_eq_true hlabel]
    rfl

/-- The rows of a category add up to the sum of its parts. -/
theorem sumOf?_of_isGroupedRows {rows : List (GroupRow Exact)}
    (hrows : IsGroupedRows t k (field :: others) rows) (category : String) :
    sumOf? (rows.filter (categoryOf · = category)) =
      if category ∈ t.categories k.filter field then
        some (ofRat (t.sumOfParts k field others category))
      else none := by
  obtain ⟨tuples, hnodup, htuples, rfl⟩ := hrows
  have hperm := perm_filter_headD hnodup htuples category
  have hfilter : (tuples.map (groupRow t k (field :: others))).filter (categoryOf · = category) =
      (tuples.filter (·.headD blankLabel = category)).map (groupRow t k (field :: others)) :=
    List.filter_map
  rw [hfilter, sumOf?_map_groupRow]
  have hnil : tuples.filter (·.headD blankLabel = category) = [] ↔
      category ∉ t.categories k.filter field := by
    rw [t.mem_categories, not_not]
    constructor
    · intro h
      rwa [h, List.nil_perm, List.map_eq_nil_iff, List.dedup_eq_nil, List.map_eq_nil_iff] at hperm
    · intro h
      rwa [h, List.map_nil, List.dedup_nil, List.map_nil, List.perm_nil] at hperm
  let number (tuple : List String) : ℚ :=
    t.number k ((t.kept k.filter).filter (t.labels (field :: others) · = tuple))
  have hsum : ((tuples.filter (·.headD blankLabel = category)).map number).sum =
      t.sumOfParts k field others category := by
    let tails := ((t.group k.filter field category).map (t.labels others)).dedup
    calc ((tuples.filter (·.headD blankLabel = category)).map number).sum
        = ((tails.map (category :: ·)).map number).sum := (hperm.map number).sum_eq
      _ = (tails.map fun rest => number (category :: rest)).sum := by
          rw [List.map_map]
          rfl
      _ = t.sumOfParts k field others category := by
          unfold number Table.sumOfParts
          simp only [filter_labels_cons]
          rfl
  by_cases hcategory : category ∈ t.categories k.filter field
  · rw [if_neg (mt hnil.mp (not_not_intro hcategory)), if_pos hcategory, hsum]
  · rw [if_pos (hnil.mpr hcategory), if_neg hcategory]

def outlines? (t : Table Row String) (k : Kpi) (threshold : Threshold Exact) (field : String)
    (value : String → ℚ) : Except ResolveError (List (String × Exact × Bool)) :=
  if t.categories k.filter field = [] then .error (.emptyResult k.source)
  else .ok (outlines threshold (t.categories k.filter field) value)

theorem outlines?_eq_iff {threshold : Threshold Exact} {value value' : String → ℚ} :
    outlines? t k threshold field value = outlines? t k threshold field value' ↔
      ∀ category ∈ t.categories k.filter field, value category = value' category := by
  unfold outlines?
  by_cases h : t.categories k.filter field = []
  · simp [h]
  · rw [if_neg h, if_neg h, Except.ok.injEq, outlines_eq_iff]

theorem isEmpty_of_isGroupedRows {rows : List (GroupRow Exact)}
    (hrows : IsGroupedRows t k (field :: others) rows) :
    rows.isEmpty = true ↔ t.categories k.filter field = [] := by
  obtain ⟨tuples, -, htuples, rfl⟩ := hrows
  unfold Table.categories
  rw [List.isEmpty_iff, List.map_eq_nil_iff, List.dedup_eq_nil, List.map_eq_nil_iff,
    List.eq_nil_iff_forall_not_mem, List.eq_nil_iff_forall_not_mem]
  constructor
  · exact fun h row hrow => h _ ((htuples _).mpr ⟨row, hrow, rfl⟩)
  · intro h tuple htuple
    obtain ⟨row, hrow, -⟩ := (htuples tuple).mp htuple
    exact h row hrow

def outline {α : Type} (b : Breakdown α) : List (String × α × Bool) :=
  b.cards.map Card.outline

theorem outline_ofAnswer (threshold : Threshold Exact) {rows : List (GroupRow Exact)}
    (hrows : IsGroupedRows t k (field :: others) rows) :
    (Except.bind (if rows.isEmpty then .error (.emptyResult k.source) else .ok rows)
      (ofAnswer k.source (field :: others) · threshold)).map outline =
      outlines? t k threshold field (t.sumOfParts k field others) := by
  unfold outlines?
  by_cases hempty : rows.isEmpty = true
  · rw [if_pos hempty, if_pos ((isEmpty_of_isGroupedRows hrows).mp hempty)]
    rfl
  · have hcategories := mt (isEmpty_of_isGroupedRows hrows).mpr hempty
    have hcards := map_outline_cardsOf (field :: others) threshold (List.nodup_dedup _)
      (sumOf?_of_isGroupedRows hrows)
    have hne : cardsOf (field :: others) rows threshold ≠ [] := by
      intro hnil
      rw [hnil] at hcards
      have hlength := congrArg List.length hcards
      rw [length_outlines] at hlength
      exact hcategories (List.length_eq_zero_iff.mp hlength.symm)
    obtain ⟨s, hs⟩ := Option.ne_none_iff_exists'.mp (mt select?_eq_none_iff.mp hne)
    rw [if_neg hempty, if_neg hcategories]
    change (ofAnswer k.source (field :: others) rows threshold).map outline = _
    unfold ofAnswer ofRows?
    dsimp only
    rw [hs]
    exact congrArg Except.ok hcards

variable [CellNumber Exact]

theorem ensures_resolve?_table (hsource : k.source = t.source) (field : String)
    (others : List String) (threshold : Threshold Exact) :
    (resolve? k (field :: others) threshold).Ensures t.AnswersGroups fun b? =>
      b?.map outline = outlines? t k threshold field (t.sumOfParts k field others) := by
  have hask := ensures_askRows_table hsource (List.cons_ne_nil field others)
  unfold resolve?
  rw [Dialogue.ensures_bind]
  apply (hask k.strategy).mono
  rintro _ ⟨rows, hrows, rfl⟩
  have houtline := outline_ofAnswer threshold hrows
  by_cases hempty : rows.isEmpty = true
  · rw [if_pos hempty]
    dsimp only
    rw [Dialogue.ensures_bind]
    apply (hask k.strategy.other).mono
    rintro _ ⟨rows', hrows', rfl⟩
    exact outline_ofAnswer threshold hrows'
  · rw [if_neg hempty] at houtline ⊢
    exact houtline

/-- Computed exactly, a breakdown with parts has the same categories as one without, and the value
of a category is the sum of the figures of its parts. -/
theorem resolve?_with_parts {σ : Type} (engine : Request → σ → Answer × σ)
    (hanswers : ∀ q s, t.AnswersGroups q (engine q s).1) (hsource : k.source = t.source)
    (field : String) (others : List String) (threshold : Threshold Exact) (s s' : σ) :
    let number category := t.number k (t.group k.filter field category)
    let plain := ((resolve? k [field] threshold).run engine s).1.map outline
    let withParts := ((resolve? k (field :: others) threshold).run engine s').1.map outline
    plain = outlines? t k threshold field number ∧
      withParts = outlines? t k threshold field (t.sumOfParts k field others) ∧
      (withParts = plain ↔ ∀ category ∈ t.categories k.filter field,
        t.sumOfParts k field others category = number category) ∧
      (k.aggregate = .sum ∨ k.aggregate = .count → withParts = plain) := by
  intro number plain withParts
  have hplain : plain = outlines? t k threshold field number := by
    have h := (ensures_resolve?_table hsource field [] threshold).run hanswers s
    exact h.trans (outlines?_eq_iff.mpr fun _ => t.sumOfParts_nil)
  have hparts : withParts = outlines? t k threshold field (t.sumOfParts k field others) :=
    (ensures_resolve?_table hsource field others threshold).run hanswers s'
  have hiff : withParts = plain ↔ ∀ category ∈ t.categories k.filter field,
      t.sumOfParts k field others category = number category := by
    rw [hplain, hparts]
    exact outlines?_eq_iff
  exact ⟨hplain, hparts, hiff, fun h => hiff.mpr fun category _ =>
    t.sumOfParts_eq_number h field others category⟩

end Parts

/-- Amounts in two cities of one region. -/
def citySales : Table (Bool × ℚ) String where
  source := "sales"
  rows := [(true, 10), (false, 20)]
  keeps _ _ := true
  label field row := if field = "region" then "east" else if row.1 then "harbor" else "hill"
  number? _ row := some row.2

def largestSale : Kpi where
  source := "sales"
  aggregate := .max
  measure := some "amount"
  filter := ∅
  xField := none
  strategy := .query

def above25 : Threshold Exact :=
  ⟨.greaterThan, some (.single (ofRat 25))⟩

def cityEngine (q : Request) (s : Unit) : Answer × Unit :=
  (citySales.groupAnswer fractionCell q, s)

theorem answersGroups_cityEngine (q : Request) (s : Unit) :
    letI := fractionCells
    citySales.AnswersGroups q (cityEngine q s).1 := by
  let _ := fractionCells
  apply citySales.answersGroups_groupAnswer shows_fractionCell
  intro field row
  unfold citySales
  dsimp only
  split
  · decide
  · split <;> decide

theorem resolve?_largestSale :
    letI := fractionCells
    (∀ q s, citySales.AnswersGroups q (cityEngine q s).1) ∧
      largestSale.source = citySales.source ∧
      ((resolve? largestSale ["region"] above25).run cityEngine ()).1.map outline =
        .ok [("east", ofRat 20, false)] ∧
      ((resolve? largestSale ["region", "city"] above25).run cityEngine ()).1.map outline =
        .ok [("east", ofRat 30, true)] := by
  let _ := fractionCells
  obtain ⟨hplain, hparts, -, -⟩ := resolve?_with_parts (k := largestSale) cityEngine
    answersGroups_cityEngine rfl "region" ["city"] above25 () ()
  refine ⟨answersGroups_cityEngine, rfl, hplain.trans ?_, hparts.trans ?_⟩
  · decide +kernel
  · decide +kernel

/-- Further fields can change a category: its largest sale becomes the sum of the largest sales of
its cities. -/
theorem not_forall_resolve?_with_parts_eq :
    ¬∀ [CellNumber Exact] (t : Table (Bool × ℚ) String) (engine : Request → Unit → Answer × Unit),
      (∀ q s, t.AnswersGroups q (engine q s).1) → ∀ k : Kpi, k.source = t.source →
        ∀ (field : String) (others : List String) (threshold : Threshold Exact), others ≠ [] →
          ((resolve? k (field :: others) threshold).run engine ()).1.map outline =
            ((resolve? k [field] threshold).run engine ()).1.map outline := by
  intro h
  let _ := fractionCells
  have heq := h citySales cityEngine answersGroups_cityEngine largestSale rfl "region" ["city"]
    above25 (by simp)
  revert heq
  decide +kernel

end Breakdown

end Alerting
