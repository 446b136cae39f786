import Alerting.Proofs.Breakdown.Checked
import Alerting.Proofs.Query.Columns
import Mathlib.Data.List.Forall2
/-!
# Reading grouped results

Each row of a result that is not empty is read as one group row with a label for each field, however
long the row is and whichever columns there are.  So a breakdown of what is read is built without an
access out of range.  Where columns are found by their names, their order does not matter.
-/

namespace Alerting.Breakdown

open Query

variable {α : Type} [Figure α] [CellNumber α]

/-! ## Labels and values -/

/-- Whether a label stands for a cell: it is the text of the cell, or else the label of blanks where
there is no such text. -/
inductive Labels (cell : Option Json) : String → Prop
  | shown {content : Json} (hcell : cell = some content)
      (hblank : Text.isBlankText content.display = false) : Labels cell content.display
  | blank (hblank : ∀ content ∈ cell, Text.isBlankText content.display = true) :
    Labels cell blankLabel

theorem labels_labelOf (cell : Option Json) : Labels cell (labelOf cell) := by
  unfold labelOf
  cases cell with
  | none => exact .blank nofun
  | some content =>
      dsimp only [Option.map_some, Option.getD_some]
      split
      · next hblank => exact .blank fun _ h => Option.some.inj h ▸ hblank
      · next hblank => exact .shown rfl (Bool.not_eq_true _ ▸ hblank)

theorem Labels.isBlankText {cell : Option Json} {label : String} (h : Labels cell label) :
    Text.isBlankText label = false := by
  cases h with
  | shown _ hblank => exact hblank
  | blank _ => decide

/-- Whether a group row is what a row is read as.  A field is found in the column with its name, or
else at its own position; the value is in the column `value`, or else in the last cell. -/
structure IsReading (result : Result) (fields : List String) (row : List Json)
    (groupRow : GroupRow α) : Prop where
  length_labels : groupRow.labels.length = fields.length
  not_blank : ∀ label ∈ groupRow.labels, Text.isBlankText label = false
  labels : ∀ (position : Nat) (field label : String), fields[position]? = some field →
    groupRow.labels[position]? = some label →
      Labels row[(result.columnIndex? field).getD position]? label
  value : ∃ cell, (result.cell? "value" row).or row.getLast? = some cell ∧
    groupRow.value = Figure.ofCell cell

def readRow (result : Result) (fields : List String) (row : List Json) : GroupRow α where
  labels := fields.zipIdx.map fun (field, position) =>
    labelOf row[(result.columnIndex? field).getD position]?
  value :=
    match result.cell? "value" row with
    | some cell => Figure.ofCell cell
    | none => (row.getLast?.map Figure.ofCell).getD 0

theorem readRows_eq (result : Result) (fields : List String) :
    readRows (α := α) result fields =
      (result.rows.filter (!·.isEmpty)).map (readRow result fields) := rfl

theorem isReading_readRow (result : Result) (fields : List String) {row : List Json}
    (hne : row ≠ []) : IsReading (α := α) result fields row (readRow result fields row) where
  length_labels := by
    rw [readRow, List.length_map, List.length_zipIdx]
  not_blank label hlabel := by
    obtain ⟨⟨field, position⟩, -, rfl⟩ := List.mem_map.mp hlabel
    exact (labels_labelOf _).isBlankText
  labels position field label hfield hlabel := by
    rw [readRow, List.getElem?_map, List.getElem?_zipIdx, hfield] at hlabel
    cases hlabel
    rw [Nat.zero_add]
    exact labels_labelOf _
  value := by
    obtain ⟨last, hlast⟩ := Option.ne_none_iff_exists'.mp (mt List.getLast?_eq_none_iff.mp hne)
    unfold readRow
    dsimp only
    cases hvalue : result.cell? "value" row with
    | some cell => exact ⟨cell, rfl, rfl⟩
    | none => exact ⟨last, hlast, by rw [hlast]; rfl⟩

theorem forall₂_readRows (result : Result) (fields : List String) :
    List.Forall₂ (IsReading (α := α) result fields) (result.rows.filter (!·.isEmpty))
      (readRows result fields) := by
  rw [readRows_eq, List.forall₂_map_right_iff, List.forall₂_same]
  exact fun row hrow => isReading_readRow result fields (by simpa using (List.mem_filter.mp hrow).2)

theorem exists_isReading {result : Result} {fields : List String} {groupRow : GroupRow α}
    (h : groupRow ∈ readRows result fields) :
    ∃ row ∈ result.rows, IsReading result fields row groupRow := by
  rw [readRows_eq] at h
  obtain ⟨row, hrow, rfl⟩ := List.mem_map.mp h
  obtain ⟨hmem, hne⟩ := List.mem_filter.mp hrow
  exact ⟨row, hmem, isReading_readRow result fields (by simpa using hne)⟩

theorem length_labels_of_mem_readRows {result : Result} {fields : List String}
    {groupRow : GroupRow α} (h : groupRow ∈ readRows result fields) :
    groupRow.labels.length = fields.length := by
  obtain ⟨_, -, hreading⟩ := exists_isReading h
  exact hreading.length_labels

theorem isEmpty_readRows (result : Result) (fields : List String) :
    (readRows (α := α) result fields).isEmpty = result.rows.all (·.isEmpty) := by
  unfold readRows
  rw [List.isEmpty_map, Bool.eq_iff_iff, List.isEmpty_iff, List.filter_eq_nil_iff,
    List.all_eq_true]
  simp only [Bool.not_eq_true', Bool.not_eq_false]

theorem readRows_eq_nil_iff {result : Result} {fields : List String} :
    readRows (α := α) result fields = [] ↔ ∀ row ∈ result.rows, row = [] := by
  rw [← List.isEmpty_iff, isEmpty_readRows, List.all_eq_true]
  exact forall₂_congr fun _ _ => List.isEmpty_iff

/-! ## The order of columns -/

section Order

variable {result : Result} {fields : List String} {order : List Nat}
  (horder : order.Perm (List.range result.columns.length))
  (hcolumns : result.HasColumns ("value" :: fields))

include horder hcolumns

theorem rows_arrange :
    (result.arrange order).rows.filter (!·.isEmpty) =
      (result.rows.filter (!·.isEmpty)).map (itemsAt order) := by
  rw [Result.arrange, List.filter_map]
  congr 1
  refine List.filter_congr fun row hrow => ?_
  have hperm : (itemsAt order row).Perm row :=
    itemsAt_perm (by rwa [hcolumns.length_eq row hrow])
  exact congrArg not hperm.isEmpty_eq

theorem readRows_arrange :
    readRows (α := α) (result.arrange order) fields = readRows result fields := by
  rw [readRows_eq, readRows_eq, rows_arrange horder hcolumns, List.map_map]
  refine List.map_congr_left fun row hrow => ?_
  have hlength := hcolumns.length_eq row (List.mem_filter.mp hrow).1
  have hlabel : ∀ field ∈ fields, ∀ position,
      (itemsAt order row)[((result.arrange order).columnIndex? field).getD position]? =
        row[(result.columnIndex? field).getD position]? := by
    intro field hfield position
    obtain ⟨i, j, cell, hi, hj, hcell, hmoved⟩ := Result.exists_cell_arrange horder hcolumns.nodup
      (hcolumns.mem_columns field (List.mem_cons_of_mem _ hfield)) hlength
    rw [hi, hj, Option.getD_some, Option.getD_some, hcell, hmoved]
  obtain ⟨i, j, cell, hi, hj, hcell, hmoved⟩ := Result.exists_cell_arrange horder hcolumns.nodup
    (hcolumns.mem_columns "value" List.mem_cons_self) hlength
  have hvalue : result.cell? "value" row = some cell := by
    rw [Result.cell?, hi, Option.bind_some, hcell]
  have hvalue' : (result.arrange order).cell? "value" (itemsAt order row) = some cell := by
    rw [Result.cell?, hj, Option.bind_some, hmoved]
  rw [Function.comp_apply, readRow, readRow, hvalue, hvalue']
  congr 1
  refine List.map_congr_left fun place hplace => ?_
  exact congrArg labelOf (hlabel _ (List.fst_mem_of_mem_zipIdx hplace) _)

end Order

/-- Each row that is not empty is read as one group row, with one label that is not blank for each
field.  So the breakdown of what is read is built with all its accesses in range, and there is none
exactly if all rows are empty.  What is read does not depend on the order of the columns if the
fields and the value are found by names. -/
theorem readRows_reads (result : Result) (fields : List String) (threshold : Threshold α) :
    List.Forall₂ (IsReading (α := α) result fields) (result.rows.filter (!·.isEmpty))
      (readRows result fields) ∧
    Checked.ofRows fields (readRows result fields) threshold =
      .ok (ofRows? fields (readRows result fields) threshold) ∧
    (ofRows? fields (readRows result fields) threshold = none ↔ ∀ row ∈ result.rows, row = []) ∧
    ∀ order : List Nat, order.Perm (List.range result.columns.length) →
      result.HasColumns ("value" :: fields) →
        readRows (α := α) (result.arrange order) fields = readRows result fields :=
  ⟨forall₂_readRows result fields,
    Checked.ofRows_of_labels (fun _ => length_labels_of_mem_readRows) threshold,
    ofRows?_eq_none_iff.trans readRows_eq_nil_iff, fun _ => readRows_arrange⟩

def salesByCity : Result where
  columns := ["city", "value"]
  rows := [[.string "Rome", .number (.int 300)], [.string " ", .number (.int 40)]]

theorem readRows_reads_salesByCity :
    [1, 0].Perm (List.range salesByCity.columns.length) ∧ salesByCity.HasColumns ["value", "city"] ∧
      readRows (salesByCity.arrange [1, 0]) ["city"] =
        [(⟨["Rome"], 300⟩ : GroupRow), ⟨["(blank)"], 40⟩] := by
  have horder : [1, 0].Perm (List.range salesByCity.columns.length) := by decide
  have hcolumns : salesByCity.HasColumns ["value", "city"] := ⟨by decide, by decide, by decide⟩
  obtain ⟨-, -, -, hmoved⟩ :=
    readRows_reads salesByCity ["city"] (⟨.greaterThan, some (.single 10)⟩ : Threshold)
  exact ⟨horder, hcolumns, (hmoved [1, 0] horder hcolumns).trans (by decide +kernel)⟩

end Alerting.Breakdown
