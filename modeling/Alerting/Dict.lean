/-!
# Dictionaries

A dictionary maps texts to values and lists its entries in ascending order of their keys, so two
dictionaries with the same entries are equal.
-/

namespace Alerting

namespace Dict

variable {α : Type}

/-- Puts an entry at its place among entries with ascending keys, over an entry with the same
key. -/
def insertEntry (key : String) (value : α) : List (String × α) → List (String × α)
  | [] => [(key, value)]
  | (k, v) :: rest =>
    if key < k then (key, value) :: (k, v) :: rest
    else if key = k then (key, value) :: rest
    else (k, v) :: insertEntry key value rest

theorem lt_of_not_lt_of_ne {a b : String} (h : ¬a < b) (hne : a ≠ b) : b < a := by
  have hba := String.not_lt.mp h
  by_cases hlt : b < a
  · exact hlt
  · exact absurd (String.le_antisymm (String.not_lt.mp hlt) hba) hne

theorem mem_insertEntry {key : String} {value : α} {e : String × α} {l : List (String × α)}
    (h : e ∈ insertEntry key value l) : e = (key, value) ∨ e ∈ l := by
  induction l with
  | nil => simpa [insertEntry] using h
  | cons head rest ih =>
    obtain ⟨k, v⟩ := head
    rw [insertEntry] at h
    split at h
    · simpa using h
    · split at h
      · exact (List.mem_cons.1 h).imp_right (List.mem_cons_of_mem _)
      · rcases List.mem_cons.1 h with h | h
        · exact .inr (h ▸ List.mem_cons_self)
        · exact (ih h).imp_right (List.mem_cons_of_mem _)

theorem pairwise_insertEntry (key : String) (value : α) {l : List (String × α)}
    (h : l.Pairwise fun a b => a.1 < b.1) :
    (insertEntry key value l).Pairwise fun a b => a.1 < b.1 := by
  induction l with
  | nil => simp [insertEntry]
  | cons head rest ih =>
    obtain ⟨k, v⟩ := head
    have hhead := (List.pairwise_cons.1 h).1
    have hrest := (List.pairwise_cons.1 h).2
    rw [insertEntry]
    split
    · rename_i hlt
      refine List.pairwise_cons.2 ⟨fun e he => ?_, h⟩
      rcases List.mem_cons.1 he with rfl | he
      · exact hlt
      · exact String.lt_trans hlt (hhead e he)
    · rename_i hlt
      split
      · rename_i heq
        subst heq
        exact List.pairwise_cons.2 ⟨hhead, hrest⟩
      · rename_i hne
        refine List.pairwise_cons.2 ⟨fun e he => ?_, ih hrest⟩
        rcases mem_insertEntry he with rfl | he
        · exact lt_of_not_lt_of_ne hlt hne
        · exact hhead e he

theorem mem_of_mem_foldl_insertEntry {l sorted : List (String × α)} {e : String × α}
    (h : e ∈ l.foldl (fun sorted e => insertEntry e.1 e.2 sorted) sorted) :
    e ∈ l ∨ e ∈ sorted := by
  induction l generalizing sorted with
  | nil => exact .inr h
  | cons head rest ih =>
    rcases ih h with he | he
    · exact .inl (List.mem_cons_of_mem _ he)
    · rcases mem_insertEntry he with rfl | he
      · exact .inl List.mem_cons_self
      · exact .inr he

theorem pairwise_foldl_insertEntry (l : List (String × α)) {sorted : List (String × α)}
    (h : sorted.Pairwise fun a b => a.1 < b.1) :
    (l.foldl (fun sorted e => insertEntry e.1 e.2 sorted) sorted).Pairwise
      fun a b => a.1 < b.1 := by
  induction l generalizing sorted with
  | nil => exact h
  | cons head rest ih => exact ih (pairwise_insertEntry _ _ h)

theorem insertEntry_of_forall_lt {key : String} (value : α) {l : List (String × α)}
    (h : ∀ e ∈ l, e.1 < key) : insertEntry key value l = l ++ [(key, value)] := by
  induction l with
  | nil => rfl
  | cons head rest ih =>
    obtain ⟨k, v⟩ := head
    rw [List.forall_mem_cons] at h
    have hlt : k < key := h.1
    have hne : key ≠ k := fun heq => String.lt_irrefl _ (heq ▸ hlt)
    rw [insertEntry, if_neg (String.lt_asymm hlt), if_neg hne, ih h.2, List.cons_append]

theorem foldl_insertEntry_of_ascending {l sorted : List (String × α)}
    (h : (sorted ++ l).Pairwise fun a b => a.1 < b.1) :
    l.foldl (fun sorted e => insertEntry e.1 e.2 sorted) sorted = sorted ++ l := by
  induction l generalizing sorted with
  | nil => exact (List.append_nil sorted).symm
  | cons head rest ih =>
    have hlt : ∀ e ∈ sorted, e.1 < head.1 :=
      fun e he => (List.pairwise_append.1 h).2.2 e he head List.mem_cons_self
    have hsplit : sorted ++ head :: rest = (sorted ++ [head]) ++ rest := by simp
    rw [hsplit] at h ⊢
    rw [List.foldl_cons, insertEntry_of_forall_lt head.2 hlt]
    exact ih h

theorem lookup_insertEntry_self (key : String) (value : α) (l : List (String × α)) :
    (insertEntry key value l).lookup key = some value := by
  induction l with
  | nil => simp [insertEntry]
  | cons head rest ih =>
    obtain ⟨k, v⟩ := head
    rw [insertEntry]
    split
    · simp
    · split
      · simp
      · rename_i hne
        have hb : (key == k) = false := by simpa using hne
        simp [List.lookup_cons, hb, ih]

theorem lookup_insertEntry_of_ne {key other : String} (h : other ≠ key) (value : α)
    (l : List (String × α)) : (insertEntry key value l).lookup other = l.lookup other := by
  have hb : (other == key) = false := by simpa using h
  induction l with
  | nil => simp [insertEntry, List.lookup_cons, hb]
  | cons head rest ih =>
    obtain ⟨k, v⟩ := head
    rw [insertEntry]
    split
    · rw [List.lookup_cons, hb]
    · split
      · rename_i heq
        subst heq
        simp [List.lookup_cons, hb]
      · simp only [List.lookup_cons, ih]

theorem lookup_eq_none_of_not_mem {l : List (String × α)} {key : String}
    (h : key ∉ l.map (·.1)) : l.lookup key = none := by
  rw [List.lookup_eq_none_iff]
  intro e he
  rw [bne_iff_ne]
  exact fun hkey => h (List.mem_map.mpr ⟨e, he, hkey.symm⟩)

theorem lookup_of_mem {l : List (String × α)} (h : (l.map (·.1)).Nodup) {e : String × α}
    (he : e ∈ l) : l.lookup e.1 = some e.2 := by
  induction l with
  | nil => cases he
  | cons head rest ih =>
    rw [List.map_cons, List.nodup_cons] at h
    rw [List.lookup_cons]
    rcases List.mem_cons.mp he with rfl | he
    · rw [beq_self_eq_true]
    · have hne : e.1 ≠ head.1 := fun heq => h.1 (heq ▸ List.mem_map_of_mem he)
      rw [beq_eq_false_iff_ne.mpr hne]
      exact ih h.2 he

theorem isSome_lookup_iff {l : List (String × α)} {key : String} :
    (l.lookup key).isSome = true ↔ key ∈ l.map (·.1) := by
  rw [List.lookup_isSome_iff, List.mem_map]
  refine exists_congr fun e => and_congr_right fun _ => ?_
  rw [beq_iff_eq, eq_comm]

theorem forall_key_of_lookup_eq {l l' : List (String × α)} {p : String → Prop}
    (h : ∀ key, l.lookup key = l'.lookup key) (hl : ∀ e ∈ l, p e.1) : ∀ e ∈ l', p e.1 := by
  intro e he
  have hsome : (l.lookup e.1).isSome = true := by
    rw [h, List.lookup_isSome_iff]
    exact ⟨e, he, beq_self_eq_true e.1⟩
  obtain ⟨e', he', hkey⟩ := List.lookup_isSome_iff.mp hsome
  rw [beq_iff_eq.mp hkey]
  exact hl e' he'

/-- Entries with different keys can be put in one after another. -/
theorem lookup_foldl_insertEntry {l : List (String × α)} (h : (l.map (·.1)).Nodup) (key : String)
    (sorted : List (String × α)) :
    (l.foldl (fun sorted e => insertEntry e.1 e.2 sorted) sorted).lookup key =
      (l.lookup key).or (sorted.lookup key) := by
  induction l generalizing sorted with
  | nil => rfl
  | cons head rest ih =>
    obtain ⟨k, v⟩ := head
    rw [List.map_cons, List.nodup_cons] at h
    rw [List.foldl_cons, ih h.2]
    by_cases heq : key = k
    · subst heq
      simp [lookup_eq_none_of_not_mem h.1, lookup_insertEntry_self]
    · have hb : (key == k) = false := by simpa using heq
      rw [lookup_insertEntry_of_ne heq, List.lookup_cons, hb]

theorem lookup_filter_key (p : String → Bool) (l : List (String × α)) (key : String) :
    (l.filter (p ·.1)).lookup key = if p key then l.lookup key else none := by
  induction l with
  | nil => simp
  | cons head rest ih =>
    obtain ⟨k, v⟩ := head
    by_cases heq : key = k
    · subst heq
      cases hp : p key <;> simp [hp, ih]
    · have hb : (key == k) = false := by simpa using heq
      rw [List.lookup_cons, hb, ← ih, List.filter_cons]
      split <;> simp [List.lookup_cons, hb]

/-- Where keys differ, an entry that is found is kept or left out for itself. -/
theorem lookup_filter {l : List (String × α)} (h : (l.map (·.1)).Nodup) (p : String × α → Bool)
    (key : String) : (l.filter p).lookup key = (l.lookup key).filter fun v => p (key, v) := by
  induction l with
  | nil => rfl
  | cons head rest ih =>
    obtain ⟨k, v⟩ := head
    rw [List.map_cons, List.nodup_cons] at h
    by_cases heq : key = k
    · subst heq
      have hrest : (rest.filter p).lookup key = none := by
        rw [ih h.2, lookup_eq_none_of_not_mem h.1]
        rfl
      cases hp : p (key, v) <;> simp [hp, hrest, Option.filter]
    · have hb : (key == k) = false := by simpa using heq
      rw [List.lookup_cons, hb, ← ih h.2, List.filter_cons]
      split <;> simp [List.lookup_cons, hb]

theorem lookup_map_value {β : Type} (f : α → β) (l : List (String × α)) (key : String) :
    (l.map fun e => (e.1, f e.2)).lookup key = (l.lookup key).map f := by
  induction l with
  | nil => rfl
  | cons head rest ih =>
    obtain ⟨k, v⟩ := head
    rw [List.map_cons, List.lookup_cons, List.lookup_cons, ih]
    cases key == k <;> rfl

end Dict

/-- A finite map from texts, its entries in ascending order of the keys. -/
@[ext] structure Dict (α : Type) where
  entries : List (String × α)
  ascending : entries.Pairwise fun a b => a.1 < b.1

namespace Dict

variable {α β : Type}

instance : EmptyCollection (Dict α) := ⟨⟨[], .nil⟩⟩

instance : Inhabited (Dict α) := ⟨∅⟩

instance [BEq α] : BEq (Dict α) := ⟨fun d e => d.entries == e.entries⟩

def get? (d : Dict α) (key : String) : Option α :=
  d.entries.lookup key

def contains (d : Dict α) (key : String) : Bool :=
  (d.get? key).isSome

def insert (d : Dict α) (key : String) (value : α) : Dict α :=
  ⟨insertEntry key value d.entries, pairwise_insertEntry key value d.ascending⟩

def erase (d : Dict α) (key : String) : Dict α :=
  ⟨d.entries.filter (·.1 != key), d.ascending.filter _⟩

/-- The dictionary with these entries; of several with one key the last is kept. -/
def ofList (l : List (String × α)) : Dict α :=
  l.foldl (fun d e => d.insert e.1 e.2) ∅

def keys (d : Dict α) : List String :=
  d.entries.map (·.1)

def isEmpty (d : Dict α) : Bool :=
  d.entries.isEmpty

def size (d : Dict α) : Nat :=
  d.entries.length

@[simp] theorem get?_empty (key : String) : (∅ : Dict α).get? key = none := rfl

@[simp] theorem get?_insert_self (d : Dict α) (key : String) (value : α) :
    (d.insert key value).get? key = some value :=
  lookup_insertEntry_self key value d.entries

theorem get?_insert_of_ne (d : Dict α) {key other : String} (h : other ≠ key) (value : α) :
    (d.insert key value).get? other = d.get? other :=
  lookup_insertEntry_of_ne h value d.entries

theorem nodup_keys (d : Dict α) : (d.entries.map (·.1)).Nodup := by
  refine List.pairwise_map.mpr (d.ascending.imp ?_)
  intro a b hlt heq
  exact String.lt_irrefl _ (heq ▸ hlt)

theorem mem_keys_iff {d : Dict α} {key : String} : key ∈ d.keys ↔ d.contains key = true :=
  isSome_lookup_iff.symm

theorem get?_erase (d : Dict α) (key other : String) :
    (d.erase key).get? other = if other = key then none else d.get? other := by
  refine (lookup_filter_key (· != key) d.entries other).trans ?_
  by_cases heq : other = key <;> simp [heq, get?]

theorem entries_foldl_insert (l : List (String × α)) (d : Dict α) :
    (l.foldl (fun d e => d.insert e.1 e.2) d).entries =
      l.foldl (fun sorted e => insertEntry e.1 e.2 sorted) d.entries := by
  induction l generalizing d with
  | nil => rfl
  | cons head rest ih => exact ih _

theorem ofList_entries (d : Dict α) : ofList d.entries = d := by
  refine Dict.ext ((entries_foldl_insert d.entries ∅).trans ?_)
  exact foldl_insertEntry_of_ascending d.ascending

theorem get?_ofList {l : List (String × α)} (h : (l.map (·.1)).Nodup) (key : String) :
    (ofList l).get? key = l.lookup key := by
  unfold get? ofList
  rw [entries_foldl_insert, lookup_foldl_insertEntry h]
  exact Option.or_none

theorem get?_ofList_map_value (f : α → β) (d : Dict α) (key : String) :
    (ofList (d.entries.map fun e => (e.1, f e.2))).get? key = (d.get? key).map f := by
  rw [get?_ofList, lookup_map_value, get?]
  rw [List.map_map]
  exact d.nodup_keys

end Dict

end Alerting
