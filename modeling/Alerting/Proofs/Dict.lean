import Alerting.Dict
import Mathlib.Data.List.Nodup
/-!
# Dictionaries as functions

A dictionary is known by what is found under each key.  What many insertions and removals come to is
said for one key at a time, and keys are counted by a condition on them.
-/

namespace Alerting.Dict

variable {α β : Type}

theorem mem_entries_iff {d : Dict α} {key : String} {value : α} :
    (key, value) ∈ d.entries ↔ d.get? key = some value := by
  constructor
  · exact lookup_of_mem d.nodup_keys
  · intro hget
    obtain ⟨before, after, hentries, -⟩ := List.lookup_eq_some_iff.mp hget
    rw [hentries]
    exact List.mem_append_right before List.mem_cons_self

theorem ext_get? {d e : Dict α} (h : ∀ key, d.get? key = e.get? key) : d = e := by
  have hperm : d.entries.Perm e.entries := by
    refine (List.perm_ext_iff_of_nodup d.nodup_keys.of_map e.nodup_keys.of_map).mpr ?_
    rintro ⟨key, value⟩
    rw [mem_entries_iff, mem_entries_iff, h]
  refine Dict.ext (hperm.eq_of_pairwise ?_ d.ascending e.ascending)
  intro a b _ _ hlt hgt
  exact absurd hgt (String.lt_asymm hlt)

theorem contains_insert_iff (d : Dict α) (key other : String) (value : α) :
    (d.insert key value).contains other = true ↔ other = key ∨ d.contains other = true := by
  unfold contains
  by_cases h : other = key
  · simp [h]
  · simp [h, get?_insert_of_ne d h]

/-! ## Many changes -/

theorem get?_foldl_erase (keys : List String) (d : Dict α) (key : String) :
    (keys.foldl erase d).get? key = if key ∈ keys then none else d.get? key := by
  induction keys generalizing d with
  | nil => rw [List.foldl_nil, if_neg List.not_mem_nil]
  | cons first rest ih =>
      rw [List.foldl_cons, ih, get?_erase]
      by_cases hfirst : key = first <;> simp [hfirst]

theorem get?_foldl_insert_const (keys : List String) (value : α) (d : Dict α) (key : String) :
    (keys.foldl (fun d key => d.insert key value) d).get? key =
      if key ∈ keys then some value else d.get? key := by
  induction keys generalizing d with
  | nil => rw [List.foldl_nil, if_neg List.not_mem_nil]
  | cons first rest ih =>
      rw [List.foldl_cons, ih]
      by_cases hfirst : key = first
      · simp [hfirst]
      · simp [hfirst, get?_insert_of_ne d hfirst]

theorem get?_foldl_insert {l : List (String × α)} (h : (l.map (·.1)).Nodup) (d : Dict α)
    (key : String) :
    (l.foldl (fun d e => d.insert e.1 e.2) d).get? key = (l.lookup key).or (d.get? key) := by
  unfold get?
  rw [entries_foldl_insert, lookup_foldl_insertEntry h]

theorem get?_foldl_insert_of_not_mem {l : List (String × α)} {key : String}
    (h : key ∉ l.map (·.1)) (d : Dict α) :
    (l.foldl (fun d e => d.insert e.1 e.2) d).get? key = d.get? key := by
  induction l generalizing d with
  | nil => rfl
  | cons first rest ih =>
      rw [List.map_cons, List.mem_cons, not_or] at h
      rw [List.foldl_cons, ih h.2, get?_insert_of_ne d h.1]

/-! ## Counting keys -/

theorem length_eq_countP_keys (d : Dict α) {keys : List String} (hkeys : keys.Nodup)
    {p : String → Bool} (h : ∀ key, key ∈ keys ↔ d.contains key = true ∧ p key = true) :
    keys.length = d.keys.countP p := by
  have hfilter : (d.keys.filter p).Nodup := d.nodup_keys.filter p
  rw [List.countP_eq_length_filter]
  refine List.Perm.length_eq ((List.perm_ext_iff_of_nodup hkeys hfilter).mpr ?_)
  intro key
  rw [h, List.mem_filter, mem_keys_iff]

theorem size_add_countP_keys (d : Dict α) (e : Dict β) :
    d.size + e.keys.countP (!d.contains ·) = e.size + d.keys.countP (!e.contains ·) := by
  have hfilter : (d.keys.filter e.contains).Nodup := d.nodup_keys.filter e.contains
  have hcommon : d.keys.countP e.contains = e.keys.countP d.contains := by
    rw [List.countP_eq_length_filter]
    refine e.length_eq_countP_keys hfilter fun key => ?_
    rw [List.mem_filter, mem_keys_iff, and_comm]
  have hd := List.length_eq_countP_add_countP e.contains (l := d.keys)
  have he := List.length_eq_countP_add_countP d.contains (l := e.keys)
  simp only [Bool.not_eq_true, Bool.decide_eq_false] at hd he
  have hdsize : d.keys.length = d.size := List.length_map _
  have hesize : e.keys.length = e.size := List.length_map _
  omega

end Alerting.Dict
