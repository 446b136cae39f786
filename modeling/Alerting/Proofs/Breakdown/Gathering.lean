import Mathlib.Data.List.Induction
import Mathlib.Data.List.Nodup
/-!
# Gathering by key

Items are gathered into entries one after another: an item is added to the entry with its key, and
the first item with a key makes a new entry at the end.  Rows are gathered into categories in this
way, and the rows of a category into its parts.

The entry with a key is what the items with this key make in their order (`find?_entries`), whatever
stands between them.
-/

namespace Alerting.Breakdown

/-- A way to gather items `ι` into entries `ε`. -/
structure Gathering (ι ε : Type) where
  keyOf : ι → String
  key : ε → String
  fresh : ι → ε
  add : ι → ε → ε
  key_fresh (i : ι) : key (fresh i) = keyOf i
  key_add (i : ι) (e : ε) : key (add i e) = key e

namespace Gathering

variable {ι ε : Type} (g : Gathering ι ε)

def put (i : ι) : List ε → List ε
  | [] => [g.fresh i]
  | e :: rest => if g.key e = g.keyOf i then g.add i e :: rest else e :: put i rest

def entries (items : List ι) : List ε :=
  items.foldl (fun es i => g.put i es) []

def extend (e? : Option ε) (i : ι) : ε :=
  e?.elim (g.fresh i) (g.add i)

def gather? (items : List ι) : Option ε :=
  items.foldl (fun e? i => some (g.extend e? i)) none

theorem gather?_concat (items : List ι) (i : ι) :
    g.gather? (items ++ [i]) = some (g.extend (g.gather? items) i) :=
  List.foldl_concat ..

theorem gather?_cons (i : ι) (items : List ι) :
    g.gather? (i :: items) = some (items.foldl (fun e i => g.add i e) (g.fresh i)) := by
  induction items using List.reverseRecOn with
  | nil => rfl
  | append_singleton items j ih =>
      rw [← List.cons_append, gather?_concat, ih, List.foldl_concat]
      rfl

theorem gather?_eq_none_iff {items : List ι} : g.gather? items = none ↔ items = [] := by
  cases items with
  | nil => exact iff_of_true rfl rfl
  | cons i rest => simp [gather?_cons]

/-! ## Entries by key -/

theorem find?_put (i : ι) (es : List ε) (k : String) :
    (g.put i es).find? (g.key · = k) =
      if g.keyOf i = k then some (g.extend (es.find? (g.key · = k)) i)
      else es.find? (g.key · = k) := by
  induction es with
  | nil =>
      rw [put, List.find?_singleton, g.key_fresh]
      by_cases hk : g.keyOf i = k <;> simp [hk, extend]
  | cons e rest ih =>
      rw [put]
      by_cases he : g.key e = g.keyOf i
      · rw [if_pos he, List.find?_cons, List.find?_cons, g.key_add, he]
        by_cases hk : g.keyOf i = k <;> simp [hk, extend]
      · rw [if_neg he]
        by_cases hk : g.key e = k
        · have hne : g.keyOf i ≠ k := fun h => he (hk.trans h.symm)
          rw [if_neg hne, List.find?_cons_of_pos (by simpa using hk),
            List.find?_cons_of_pos (by simpa using hk)]
        · rw [List.find?_cons_of_neg (by simpa using hk),
            List.find?_cons_of_neg (by simpa using hk),
            ih]

theorem find?_entries (items : List ι) (k : String) :
    (g.entries items).find? (g.key · = k) = g.gather? (items.filter (g.keyOf · = k)) := by
  induction items using List.reverseRecOn with
  | nil => rfl
  | append_singleton items i ih =>
      rw [entries, List.foldl_concat]
      change (g.put i (g.entries items)).find? _ = _
      rw [find?_put, ih, List.filter_append]
      by_cases hk : g.keyOf i = k
      · rw [if_pos hk, List.filter_cons_of_pos (by simpa using hk), List.filter_nil, gather?_concat]
      · rw [if_neg hk, List.filter_cons_of_neg (by simpa using hk), List.filter_nil,
          List.append_nil]

theorem keys_put (i : ι) (es : List ε) :
    (g.put i es).map g.key =
      if g.keyOf i ∈ es.map g.key then es.map g.key else es.map g.key ++ [g.keyOf i] := by
  induction es with
  | nil => exact congrArg (fun k => [k]) (g.key_fresh i)
  | cons e rest ih =>
      rw [put, List.map_cons]
      by_cases he : g.key e = g.keyOf i
      · rw [if_pos he, if_pos (he ▸ List.mem_cons_self), List.map_cons, g.key_add]
      · rw [if_neg he, List.map_cons, ih]
        have hmem : g.keyOf i ∈ g.key e :: rest.map g.key ↔ g.keyOf i ∈ rest.map g.key := by
          rw [List.mem_cons, or_iff_right (Ne.symm he)]
        by_cases hk : g.keyOf i ∈ rest.map g.key
        · rw [if_pos hk, if_pos (hmem.mpr hk)]
        · rw [if_neg hk, if_neg (mt hmem.mp hk), List.cons_append]

theorem nodup_keys_entries (items : List ι) : ((g.entries items).map g.key).Nodup := by
  induction items using List.reverseRecOn with
  | nil => exact List.nodup_nil
  | append_singleton items i ih =>
      rw [entries, List.foldl_concat]
      change ((g.put i (g.entries items)).map g.key).Nodup
      rw [keys_put]
      split
      · exact ih
      · next hnew =>
        rw [← List.concat_eq_append]
        exact List.Nodup.concat hnew ih

theorem find?_key_of_mem {es : List ε} (hnodup : (es.map g.key).Nodup) {e : ε} (he : e ∈ es) :
    es.find? (g.key · = g.key e) = some e := by
  induction es with
  | nil => exact absurd he List.not_mem_nil
  | cons first rest ih =>
      rw [List.map_cons, List.nodup_cons] at hnodup
      rcases List.mem_cons.mp he with rfl | hrest
      · exact List.find?_cons_of_pos (decide_eq_true rfl)
      · have hne : g.key first ≠ g.key e := fun heq =>
          hnodup.1 (heq ▸ List.mem_map_of_mem hrest)
        rw [List.find?_cons_of_neg (by simpa using hne)]
        exact ih hnodup.2 hrest

theorem key_of_gather? {items : List ι} {k : String} {e : ε}
    (h : g.gather? (items.filter (g.keyOf · = k)) = some e) : g.key e = k := by
  rw [← find?_entries] at h
  simpa using List.find?_some h

/-- There is one entry for each key that occurs, and the items with this key make it. -/
theorem mem_entries_iff {items : List ι} {e : ε} :
    e ∈ g.entries items ↔ g.gather? (items.filter (g.keyOf · = g.key e)) = some e := by
  rw [← find?_entries]
  exact ⟨g.find?_key_of_mem (g.nodup_keys_entries items), List.mem_of_find?_eq_some⟩

theorem mem_keys_entries_iff {items : List ι} {k : String} :
    k ∈ (g.entries items).map g.key ↔ ∃ i ∈ items, g.keyOf i = k := by
  have hfilter : items.filter (g.keyOf · = k) ≠ [] ↔ ∃ i ∈ items, g.keyOf i = k := by
    simp [List.filter_eq_nil_iff]
  rw [← hfilter, ne_eq, ← g.gather?_eq_none_iff, ← find?_entries, List.find?_eq_none, List.mem_map]
  simp

end Gathering

end Alerting.Breakdown
