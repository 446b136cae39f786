import Alerting.Query.Result
import Mathlib.Data.List.Nodup
/-!
# The order of columns

The columns of a table are brought into another order by moving their names, and the cells of each
row with them.  A cell that is found by the name of its column is found as before.
-/

namespace Alerting.Query

section Items

variable {ι : Type} {order : List Nat} {l : List ι}

def itemsAt (order : List Nat) (l : List ι) : List ι :=
  order.filterMap (l[·]?)

theorem getElem?_itemsAt (h : ∀ i ∈ order, i < l.length) (j : Nat) :
    (itemsAt order l)[j]? = order[j]?.bind (l[·]?) := by
  induction order generalizing j with
  | nil => rfl
  | cons i order ih =>
      rw [List.forall_mem_cons] at h
      have hitem : l[i]? = some l[i] := List.getElem?_eq_getElem h.1
      rw [itemsAt, List.filterMap_cons_some hitem]
      cases j with
      | zero => exact hitem.symm
      | succ j => exact ih h.2 j

section Perm

variable (horder : order.Perm (List.range l.length))

include horder

theorem lt_length_of_mem {i : Nat} (hi : i ∈ order) : i < l.length :=
  List.mem_range.mp (horder.mem_iff.mp hi)

theorem itemsAt_perm : (itemsAt order l).Perm l := by
  have hall : itemsAt (List.range l.length) l = l := by
    refine List.ext_getElem? fun j => ?_
    rw [getElem?_itemsAt fun i hi => List.mem_range.mp hi]
    rcases Nat.lt_or_ge j l.length with hj | hj
    · rw [List.getElem?_range hj, Option.bind_some]
    · rw [List.getElem?_eq_none hj, List.getElem?_eq_none (by rwa [List.length_range]),
        Option.bind_none]
  have hperm : (itemsAt order l).Perm (itemsAt (List.range l.length) l) := horder.filterMap _
  rwa [hall] at hperm

end Perm

end Items

namespace Result

variable {r : Result} {order : List Nat}

def arrange (order : List Nat) (r : Result) : Result where
  columns := itemsAt order r.columns
  rows := r.rows.map (itemsAt order)

/-- Whether a table has these columns: no name stands for two columns, and each row has a cell for
each column. -/
structure HasColumns (r : Result) (names : List String) : Prop where
  nodup : r.columns.Nodup
  mem_columns : ∀ name ∈ names, name ∈ r.columns
  length_eq : ∀ row ∈ r.rows, row.length = r.columns.length

theorem columnIndex?_of_getElem? (hnodup : r.columns.Nodup) {i : Nat} {name : String}
    (h : r.columns[i]? = some name) : r.columnIndex? name = some i := by
  obtain ⟨hi, hname⟩ := List.getElem?_eq_some_iff.mp h
  refine List.idxOf?_eq_some_iff.mpr ⟨hi, hname, fun j hj heq => ?_⟩
  have hsame : j = i := (hnodup.getElem_inj_iff).mp (heq.trans hname.symm)
  omega

/-- The cell in a column moves to where the name of the column moves. -/
theorem exists_cell_arrange (horder : order.Perm (List.range r.columns.length))
    (hnodup : r.columns.Nodup) {name : String} (hname : name ∈ r.columns) {row : List Json}
    (hrow : row.length = r.columns.length) :
    ∃ i j cell, r.columnIndex? name = some i ∧ (r.arrange order).columnIndex? name = some j ∧
      row[i]? = some cell ∧ (itemsAt order row)[j]? = some cell := by
  obtain ⟨i, hi⟩ := List.mem_iff_getElem?.mp hname
  have hlt : i < r.columns.length := (List.getElem?_eq_some_iff.mp hi).1
  obtain ⟨j, hj⟩ := List.mem_iff_getElem?.mp (horder.mem_iff.mpr (List.mem_range.mpr hlt))
  have hcell : row[i]? = some row[i] := List.getElem?_eq_getElem (hrow ▸ hlt)
  have hmoved : (r.arrange order).columns[j]? = some name := by
    rw [arrange, getElem?_itemsAt fun _ => lt_length_of_mem horder, hj, Option.bind_some, hi]
  refine ⟨i, j, row[i], columnIndex?_of_getElem? hnodup hi, ?_, hcell, ?_⟩
  · exact columnIndex?_of_getElem? ((itemsAt_perm horder).nodup_iff.mpr hnodup) hmoved
  · rw [getElem?_itemsAt fun _ hmem => hrow ▸ lt_length_of_mem horder hmem, hj, Option.bind_some,
      hcell]

end Result

end Alerting.Query
