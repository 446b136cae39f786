import Alerting.Kpi
import Alerting.Proofs.Numeric.Exact
import Mathlib.Data.List.Dedup
import Mathlib.Data.List.Perm.Basic
/-!
# Tables behind an engine

An engine may answer from a table: rows with labels and numbers in their fields, of which a filter
keeps some.  The figures of an aggregate are given here for any rows of a table, and so what it
means that an engine answers a request from the table.  What does not decompose is left to the
theorems about key figures and breakdowns; here are the two facts by which totals of groups add up:

* `perm_flatMap_filter`: rows are, up to their order, the rows of their groups;
* `sum_value?_groups`: sums and counts of groups add up to those of all rows.
-/

namespace Alerting.Query

open Exact

/-- The figure of an aggregate over rows, so many of them, with these numbers among them.  There is
none without a number, except for the count of the rows. -/
def Aggregate.over (aggregate : Aggregate) (rowCount : Nat) (numbers : List ℚ) : Option ℚ :=
  match aggregate with
  | count => some rowCount
  | sum => if numbers.isEmpty then none else some numbers.sum
  | avg => if numbers.isEmpty then none else some (numbers.sum / numbers.length)
  | min => numbers.min?
  | max => numbers.max?
  | distinct => if numbers.isEmpty then none else some numbers.dedup.length

structure Table (Row Label : Type) where
  source : String
  rows : List Row
  /-- Whether a filter keeps a row. -/
  keeps : Filter → Row → Bool
  label : String → Row → Label
  /-- The number of a row in a field, if it has one there. -/
  number? : String → Row → Option ℚ

namespace Table

variable {Row Label : Type} (t : Table Row Label)

def kept (filter : Filter) : List Row :=
  t.rows.filter (t.keeps filter)

def numbers (measure : Option String) (rows : List Row) : List ℚ :=
  rows.filterMap fun row => measure.bind (t.number? · row)

def value? (aggregate : Aggregate) (measure : Option String) (rows : List Row) : Option ℚ :=
  aggregate.over rows.length (t.numbers measure rows)

def number (k : Kpi) (rows : List Row) : ℚ :=
  (t.value? k.aggregate (k.aggregate.measure k.measure) rows).getD 0

def summand (aggregate : Aggregate) (measure : Option String) (row : Row) : ℚ :=
  if aggregate = .count then 1 else (measure.bind (t.number? · row)).getD 0

theorem sum_numbers (measure : Option String) (rows : List Row) :
    (t.numbers measure rows).sum =
      (rows.map fun row => (measure.bind (t.number? · row)).getD 0).sum := by
  induction rows with
  | nil => rfl
  | cons row rows ih =>
      unfold numbers at ih ⊢
      rw [List.filterMap_cons, List.map_cons, List.sum_cons]
      cases measure.bind (t.number? · row) with
      | none => rw [ih, Option.getD_none, zero_add]
      | some q => rw [List.sum_cons, ih, Option.getD_some]

theorem value?_eq_sum {aggregate : Aggregate} (h : aggregate = .sum ∨ aggregate = .count)
    (measure : Option String) (rows : List Row) :
    (t.value? aggregate measure rows).getD 0 = (rows.map (t.summand aggregate measure)).sum := by
  rcases h with rfl | rfl
  · change _ = (rows.map fun row => (measure.bind (t.number? · row)).getD 0).sum
    rw [← sum_numbers]
    change (if (t.numbers measure rows).isEmpty then none else some _).getD 0 = _
    cases t.numbers measure rows <;> rfl
  · change (rows.length : ℚ) = (rows.map fun _ => 1).sum
    rw [List.map_const', List.sum_replicate, nsmul_one]

/-! ## Groups -/

/-- Rows are, up to their order, the rows of their groups. -/
theorem perm_flatMap_filter {κ : Type} [DecidableEq κ] (key : Row → κ) {keys : List κ}
    (hkeys : keys.Nodup) {rows : List Row} (hcover : ∀ row ∈ rows, key row ∈ keys) :
    (keys.flatMap fun k => rows.filter (key · = k)).Perm rows := by
  induction keys generalizing rows with
  | nil =>
      cases rows with
      | nil => exact .nil
      | cons row rows => exact absurd (hcover row List.mem_cons_self) List.not_mem_nil
  | cons k keys ih =>
      rw [List.nodup_cons] at hkeys
      rw [List.flatMap_cons]
      -- the other groups are the same among the rows outside of the first one
      have hothers : (keys.flatMap fun l => rows.filter (key · = l)) =
          keys.flatMap fun l =>
            (rows.filter fun row => !decide (key row = k)).filter (key · = l) := by
        apply List.flatMap_congr
        intro l hl
        rw [List.filter_filter]
        apply List.filter_congr
        intro row _
        have hlk : l ≠ k := fun h => hkeys.1 (h ▸ hl)
        by_cases hrow : key row = l
        · simp [hrow, hlk]
        · simp [hrow]
      have hrest : ∀ row ∈ rows.filter fun row => !decide (key row = k), key row ∈ keys := by
        intro row hrow
        rw [List.mem_filter] at hrow
        have hne : key row ≠ k := by simpa using hrow.2
        exact (List.mem_cons.mp (hcover row hrow.1)).resolve_left hne
      rw [hothers]
      exact ((ih hkeys.2 hrest).append_left _).trans (List.filter_append_perm _ rows)

theorem sum_map_groups {κ : Type} [DecidableEq κ] (key : Row → κ) {keys : List κ}
    (hkeys : keys.Nodup) {rows : List Row} (hcover : ∀ row ∈ rows, key row ∈ keys) (f : Row → ℚ) :
    (keys.map fun k => ((rows.filter (key · = k)).map f).sum).sum = (rows.map f).sum :=
  calc (keys.map fun k => ((rows.filter (key · = k)).map f).sum).sum
      = ((keys.flatMap fun k => rows.filter (key · = k)).map f).sum := by
        rw [List.map_flatMap, List.flatMap_def, List.sum_flatten, List.map_map]
        rfl
    _ = (rows.map f).sum := ((perm_flatMap_filter key hkeys hcover).map f).sum_eq

/-- Sums and counts of groups add up to those of all rows. -/
theorem sum_value?_groups {κ : Type} [DecidableEq κ] (key : Row → κ) {keys : List κ}
    (hkeys : keys.Nodup) {rows : List Row} (hcover : ∀ row ∈ rows, key row ∈ keys)
    {aggregate : Aggregate} (h : aggregate = .sum ∨ aggregate = .count)
    (measure : Option String) :
    (keys.map fun k => (t.value? aggregate measure (rows.filter (key · = k))).getD 0).sum =
      (t.value? aggregate measure rows).getD 0 := by
  simp only [t.value?_eq_sum h]
  exact sum_map_groups key hkeys hcover _

/-! ## Answers -/

variable [CellNumber Exact]

/-- Whether a cell holds the figure, or null where there is none. -/
def Shows (cell : Json) : Option ℚ → Prop
  | some q => CellNumber.ofCell? cell = some (ofRat q)
  | none => cell = .null

theorem ofCell_of_shows {cell : Json} {value : Option ℚ} (h : Shows cell value) :
    Figure.ofCell cell = ofRat (value.getD 0) := by
  unfold Figure.ofCell
  cases value with
  | some q =>
      rw [show CellNumber.ofCell? cell = some (ofRat q) from h]
      rfl
  | none =>
      rw [show cell = .null from h, CellNumber.ofCell?_null]
      rfl

variable [DecidableEq Label]

def group (filter : Filter) (field : String) (label : Label) : List Row :=
  (t.kept filter).filter (t.label field · = label)

/-- Whether an engine answers a request for key figures from the table: with one row for all rows
that are kept, or in a cross table over one field with one row for each label in it. -/
def Answers : Request → Answer → Prop
  | .aggregate a, answer =>
    a.source = t.source → a.legend = none → a.x = none → a.groupBy = [] →
      ∃ result row cell, answer = .ok result ∧ result.rows = [row] ∧
        result.cell? "value" row = some cell ∧
        Shows cell (t.value? a.aggregate a.measure (t.kept a.filter))
  | .pivot p, answer =>
    p.source = t.source → p.cols = [] →
      match p.rows with
      | [] =>
        ∃ result row cell, answer = .ok result ∧ result.rows = [row] ∧
          row.getLast? = some cell ∧
          Shows cell (t.value? p.aggregate p.valueField (t.kept p.filter))
      | [field] =>
        ∃ (result : Result) (labels : List Label), answer = .ok result ∧ labels.Nodup ∧
          (∀ label, label ∈ labels ↔ ∃ row ∈ t.kept p.filter, t.label field row = label) ∧
          labels.Forall₂ (fun label row => ∃ cell, row.getLast? = some cell ∧
            Shows cell (t.value? p.aggregate p.valueField (t.group p.filter field label)))
            result.rows
      | _ => True

def answer (render : Option ℚ → Json) : Request → Answer
  | .aggregate a =>
    .ok ⟨["value"], [[render (t.value? a.aggregate a.measure (t.kept a.filter))]]⟩
  | .pivot p =>
    match p.rows with
    | [field] =>
      .ok ⟨[], ((t.kept p.filter).map (t.label field)).dedup.map fun label =>
        [render (t.value? p.aggregate p.valueField (t.group p.filter field label))]⟩
    | _ => .ok ⟨[], [[render (t.value? p.aggregate p.valueField (t.kept p.filter))]]⟩

theorem answers_answer {render : Option ℚ → Json} (hrender : ∀ v, Shows (render v) v)
    (q : Request) : t.Answers q (t.answer render q) := by
  cases q with
  | aggregate a =>
      intro _ _ _ _
      exact ⟨_, _, _, rfl, rfl, rfl, hrender _⟩
  | pivot p =>
      rcases p with ⟨source, rows, cols, valueField, aggregate, filter⟩
      intro _ _
      match rows with
      | [] => exact ⟨_, _, _, rfl, rfl, rfl, hrender _⟩
      | [field] =>
          refine ⟨_, ((t.kept filter).map (t.label field)).dedup, rfl, List.nodup_dedup _,
            fun label => by rw [List.mem_dedup, List.mem_map], ?_⟩
          rw [List.forall₂_map_right_iff, List.forall₂_same]
          exact fun label _ => ⟨_, rfl, hrender _⟩
      | _ :: _ :: _ => trivial

end Table

/-- Cells of exact numbers: an integer, or a fraction as the array of its numerator and its
denominator. -/
@[reducible] def fractionCells : CellNumber Exact where
  ofCell?
    | .number (.int n) => some (ofRat n)
    | .array [.number (.int n), .number (.int d)] => some (ofRat (n / d))
    | _ => none
  ofCell?_null := rfl

def fractionCell : Option ℚ → Json
  | none => .null
  | some q => if q.den = 1 then .int q.num else .array [.int q.num, .int q.den]

theorem shows_fractionCell (value : Option ℚ) :
    @Table.Shows fractionCells (fractionCell value) value := by
  cases value with
  | none => rfl
  | some q =>
      unfold fractionCell
      dsimp only
      split
      · next hden =>
        change some (ofRat q.num) = some (ofRat q)
        rw [Rat.coe_int_num_of_den_eq_one hden]
      · change some (ofRat (q.num / (q.den : Int))) = some (ofRat q)
        rw [Int.cast_natCast, Rat.num_div_den]

end Alerting.Query
