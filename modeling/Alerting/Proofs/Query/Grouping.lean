import Alerting.Proofs.Query.Table
/-!
# Tables by groups

An engine that groups by several fields answers one row for each combination of labels that occurs.
What such an answer shows of a category is the figures of its parts; these add up to the figure of
the category where the aggregate is a sum or a count.
-/

namespace Alerting

open Exact

namespace Query

/-- Whether a row shows these labels: each in the column with the name of its field, or else in the
place that the field has among the fields. -/
def Result.ShowsLabels (result : Result) (fields labels : List String) (row : List Json) : Prop :=
  fields.zipIdx.Forall₂ (fun field label =>
    ∃ cell, row[(result.columnIndex? field.1).getD field.2]? = some cell ∧
      cell.display = label ∧ Text.isBlankText label = false) labels

namespace Table

variable {Row : Type} (t : Table Row String)

def labels (fields : List String) (row : Row) : List String :=
  fields.map (t.label · row)

def categories (filter : Filter) (field : String) : List String :=
  ((t.kept filter).map (t.label field)).dedup

def sumOfParts (k : Kpi) (field : String) (others : List String) (category : String) : ℚ :=
  let rows := t.group k.filter field category
  ((rows.map (t.labels others)).dedup.map fun tuple =>
    t.number k (rows.filter (t.labels others · = tuple))).sum

theorem mem_categories {filter : Filter} {field category : String} :
    category ∈ t.categories filter field ↔ t.group filter field category ≠ [] := by
  unfold categories group
  rw [List.mem_dedup, List.mem_map, ne_eq, List.filter_eq_nil_iff]
  simp

theorem sumOfParts_nil {k : Kpi} {field category : String}
    (h : category ∈ t.categories k.filter field) :
    t.sumOfParts k field [] category = t.number k (t.group k.filter field category) := by
  have hne : t.group k.filter field category ≠ [] := t.mem_categories.mp h
  have hdedup : ((t.group k.filter field category).map (t.labels [])).dedup = [[]] := by
    change (List.map (fun _ => []) _).dedup = _
    rw [List.map_const', List.replicate_dedup (mt List.length_eq_zero_iff.mp hne)]
  unfold sumOfParts
  dsimp only
  rw [hdedup, List.map_singleton, List.sum_singleton, List.filter_eq_self.mpr]
  exact fun _ _ => rfl

/-- Sums and counts of parts add up to those of their category. -/
theorem sumOfParts_eq_number {k : Kpi} (h : k.aggregate = .sum ∨ k.aggregate = .count)
    (field : String) (others : List String) (category : String) :
    t.sumOfParts k field others category = t.number k (t.group k.filter field category) := by
  apply t.sum_value?_groups (t.labels others) (List.nodup_dedup _) _ h
  intro row hrow
  rw [List.mem_dedup]
  exact List.mem_map_of_mem hrow

variable [CellNumber Exact]

/-- Whether an answer has one row for each combination of labels that occurs, with the figure of the
rows that have these labels. -/
def IsGrouped (aggregate : Aggregate) (measure : Option String) (filter : Filter)
    (fields : List String) (answer : Answer) : Prop :=
  ∃ (result : Result) (tuples : List (List String)), answer = .ok result ∧ tuples.Nodup ∧
    (∀ tuple, tuple ∈ tuples ↔ ∃ row ∈ t.kept filter, t.labels fields row = tuple) ∧
    tuples.Forall₂ (fun tuple row =>
      result.ShowsLabels fields tuple row ∧
        ∃ cell, (result.cell? "value" row).or row.getLast? = some cell ∧
          Shows cell (t.value? aggregate measure
            ((t.kept filter).filter (t.labels fields · = tuple)))) result.rows

def AnswersGroups : Request → Answer → Prop
  | .aggregate a, answer =>
    a.source = t.source → a.groupBy ≠ [] → a.legend = a.groupBy.head? → a.x = none →
      t.IsGrouped a.aggregate a.measure a.filter a.groupBy answer
  | .pivot p, answer =>
    p.source = t.source → p.rows ≠ [] → p.cols = [] →
      t.IsGrouped p.aggregate p.valueField p.filter p.rows answer

def groupAnswer (render : Option ℚ → Json) : Request → Answer
  | .aggregate a => grouped a.aggregate a.measure a.filter a.groupBy
  | .pivot p => grouped p.aggregate p.valueField p.filter p.rows
where
  grouped (aggregate : Aggregate) (measure : Option String) (filter : Filter)
      (fields : List String) : Answer :=
    .ok ⟨[], ((t.kept filter).map (t.labels fields)).dedup.map fun tuple =>
      tuple.map .string ++ [render (t.value? aggregate measure
        ((t.kept filter).filter (t.labels fields · = tuple)))]⟩

omit [CellNumber Exact] in
theorem showsLabels_concat
    (hlabels : ∀ field row, Text.isBlankText (t.label field row) = false) (fields : List String)
    (row : Row) (rows : List (List Json)) (cell : Json) :
    (⟨[], rows⟩ : Result).ShowsLabels fields (t.labels fields row)
      ((t.labels fields row).map .string ++ [cell]) := by
  have hplaces : t.labels fields row = fields.zipIdx.map fun place => t.label place.1 row := by
    unfold labels
    nth_rewrite 1 [← List.zipIdx_map_fst 0 fields]
    rw [List.map_map]
    rfl
  have hplace : ∀ place ∈ fields.zipIdx,
      ((t.labels fields row).map Json.string ++ [cell])[place.2]? =
        some (.string (t.label place.1 row)) := by
    intro place hplace
    rw [List.mem_zipIdx_iff_getElem?] at hplace
    have hcell : ((t.labels fields row).map Json.string)[place.2]? =
        some (.string (t.label place.1 row)) := by
      unfold labels
      rw [List.getElem?_map, List.getElem?_map, hplace]
      rfl
    rw [List.getElem?_append_left (List.getElem?_eq_some_iff.mp hcell).1, hcell]
  unfold Result.ShowsLabels
  nth_rewrite 2 [hplaces]
  rw [List.forall₂_map_right_iff, List.forall₂_same]
  exact fun place h => ⟨_, hplace place h, rfl, hlabels place.1 row⟩

theorem isGrouped_grouped {render : Option ℚ → Json} (hrender : ∀ v, Shows (render v) v)
    (hlabels : ∀ field row, Text.isBlankText (t.label field row) = false) (aggregate : Aggregate)
    (measure : Option String) (filter : Filter) (fields : List String) :
    t.IsGrouped aggregate measure filter fields
      (groupAnswer.grouped t render aggregate measure filter fields) := by
  refine ⟨_, ((t.kept filter).map (t.labels fields)).dedup, rfl, List.nodup_dedup _,
    fun tuple => by rw [List.mem_dedup, List.mem_map], ?_⟩
  rw [List.forall₂_map_right_iff, List.forall₂_same]
  intro tuple htuple
  rw [List.mem_dedup, List.mem_map] at htuple
  obtain ⟨row, -, rfl⟩ := htuple
  exact ⟨t.showsLabels_concat hlabels fields row _ _, _, List.getLast?_concat, hrender _⟩

theorem answersGroups_groupAnswer {render : Option ℚ → Json} (hrender : ∀ v, Shows (render v) v)
    (hlabels : ∀ field row, Text.isBlankText (t.label field row) = false) (q : Request) :
    t.AnswersGroups q (t.groupAnswer render q) := by
  cases q with
  | aggregate a => exact fun _ _ _ _ => t.isGrouped_grouped hrender hlabels _ _ _ _
  | pivot p => exact fun _ _ _ => t.isGrouped_grouped hrender hlabels _ _ _ _

end Table

end Query

end Alerting
