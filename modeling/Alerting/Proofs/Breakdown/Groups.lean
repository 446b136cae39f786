import Alerting.Breakdown
import Alerting.Proofs.Breakdown.Gathering
/-!
# The groups of a breakdown

Rows are gathered by their categories, and the rows of a category by the labels of their parts.  So
each category that occurs has one group, and its value is the sum over the rows of the category, in
their order.
-/

namespace Alerting.Breakdown

variable {α : Type} [Figure α]

def categoryGathering (withParts : Bool) : Gathering (GroupRow α) (Group α) where
  keyOf := categoryOf
  key := Group.category
  fresh row := Group.add withParts row ⟨categoryOf row, 0, []⟩
  add := Group.add withParts
  key_fresh _ := rfl
  key_add _ _ := rfl

def partGathering : Gathering (GroupRow α) (Part α) where
  keyOf := partLabel
  key := Part.label
  fresh row := ⟨partLabel row, row.value⟩
  add row part := { part with value := part.value + row.value }
  key_fresh _ := rfl
  key_add _ _ := rfl

theorem put_categoryGathering (withParts : Bool) (row : GroupRow α) (gs : List (Group α)) :
    (categoryGathering withParts).put row gs = addRow withParts row gs := by
  induction gs with
  | nil => rfl
  | cons g rest ih =>
      rw [Gathering.put, addRow, ih]
      rfl

theorem put_partGathering (row : GroupRow α) (parts : List (Part α)) :
    partGathering.put row parts = addPart (partLabel row) row.value parts := by
  induction parts with
  | nil => rfl
  | cons part rest ih =>
      rw [Gathering.put, addPart, ih]
      rfl

theorem groups_eq (fields : List String) (rows : List (GroupRow α)) :
    groups fields rows = (categoryGathering (2 ≤ fields.length)).entries rows := by
  unfold groups Gathering.entries
  simp only [put_categoryGathering]

/-! ## The rows of a group -/

/-- The sum over rows, which is absent where there are none. -/
def sumOf? : List (GroupRow α) → Option α
  | [] => none
  | row :: rows => some ((row :: rows).foldl (fun sum r => sum + r.value) 0)

theorem foldl_of_sumOf? {rows : List (GroupRow α)} {value : α} (h : sumOf? rows = some value) :
    rows.foldl (fun sum r => sum + r.value) 0 = value := by
  cases rows with
  | nil => cases h
  | cons row rest => exact Option.some.inj h

/-- The sum of values from the left, which starts with the first. -/
def leftSum : List α → α
  | [] => 0
  | x :: rest => rest.foldl (· + ·) x

section Group

variable {withParts : Bool} {rows : List (GroupRow α)} {g : Group α}

theorem value_foldl_add (rows : List (GroupRow α)) (g : Group α) :
    (rows.foldl (fun g row => g.add withParts row) g).value =
      rows.foldl (fun sum r => sum + r.value) g.value :=
  (List.foldl_hom Group.value fun _ _ => rfl).symm

theorem parts_foldl_add (rows : List (GroupRow α)) (g : Group α) :
    (rows.foldl (fun g row => g.add withParts row) g).parts =
      if withParts then rows.foldl (fun parts row => partGathering.put row parts) g.parts
      else g.parts := by
  induction rows generalizing g with
  | nil => cases withParts <;> rfl
  | cons row rest ih =>
      rw [List.foldl_cons, ih, List.foldl_cons, put_partGathering]
      cases withParts <;> rfl

theorem exists_of_gather?_eq_some (h : (categoryGathering withParts).gather? rows = some g) :
    ∃ category, g = rows.foldl (fun g row => g.add withParts row) ⟨category, 0, []⟩ := by
  cases rows with
  | nil => cases h
  | cons row rest =>
      rw [Gathering.gather?_cons, Option.some_inj] at h
      exact ⟨categoryOf row, h.symm⟩

theorem parts_of_gather? (h : (categoryGathering withParts).gather? rows = some g) :
    g.parts = if withParts then partGathering.entries rows else [] := by
  obtain ⟨category, rfl⟩ := exists_of_gather?_eq_some h
  exact parts_foldl_add rows _

theorem map_value_gather? (withParts : Bool) (rows : List (GroupRow α)) :
    ((categoryGathering withParts).gather? rows).map (·.value) = sumOf? rows := by
  cases rows with
  | nil => rfl
  | cons row rest =>
      rw [Gathering.gather?_cons, Option.map_some]
      exact congrArg some (value_foldl_add rest _)

theorem value_of_gather? {part : Part α} (h : partGathering.gather? rows = some part) :
    part.value = leftSum (rows.map (·.value)) := by
  cases rows with
  | nil => cases h
  | cons row rest =>
      rw [Gathering.gather?_cons, Option.some_inj] at h
      subst h
      rw [List.map_cons, leftSum, List.foldl_map]
      exact (List.foldl_hom Part.value fun _ _ => rfl).symm

end Group

/-- There is one part for each label that occurs, and its value is the sum over the rows with this
label. -/
theorem mem_entries_partGathering {rows : List (GroupRow α)} {part : Part α} :
    part ∈ partGathering.entries rows ↔
      (∃ row ∈ rows, partLabel row = part.label) ∧
        part.value = leftSum ((rows.filter (partLabel · = part.label)).map (·.value)) := by
  rw [partGathering.mem_entries_iff]
  constructor
  · intro hpart
    have hkey : part.label ∈ (partGathering.entries rows).map (·.label) :=
      List.mem_map_of_mem (partGathering.mem_entries_iff.mpr hpart)
    exact ⟨partGathering.mem_keys_entries_iff.mp hkey, value_of_gather? hpart⟩
  · rintro ⟨⟨row, hrow, hlabel⟩, hvalue⟩
    have hne : rows.filter (partLabel · = part.label) ≠ [] :=
      List.ne_nil_of_mem (List.mem_filter.mpr ⟨hrow, decide_eq_true hlabel⟩)
    obtain ⟨other, hother⟩ :=
      Option.ne_none_iff_exists'.mp (mt partGathering.gather?_eq_none_iff.mp hne)
    have hlabel' : other.label = part.label := partGathering.key_of_gather? hother
    have hvalue' := value_of_gather? hother
    rw [← hvalue] at hvalue'
    obtain ⟨label, value⟩ := other
    cases hlabel'
    cases hvalue'
    exact hother

theorem mem_groups_iff {fields : List String} {rows : List (GroupRow α)} {g : Group α} :
    g ∈ groups fields rows ↔
      (categoryGathering (2 ≤ fields.length)).gather? (rows.filter (categoryOf · = g.category)) =
        some g := by
  rw [groups_eq]
  exact (categoryGathering _).mem_entries_iff

theorem nodup_categories_groups (fields : List String) (rows : List (GroupRow α)) :
    ((groups fields rows).map (·.category)).Nodup := by
  rw [groups_eq]
  exact (categoryGathering _).nodup_keys_entries rows

theorem mem_categories_groups {fields : List String} {rows : List (GroupRow α)}
    {category : String} :
    category ∈ (groups fields rows).map (·.category) ↔ ∃ row ∈ rows, categoryOf row = category := by
  rw [groups_eq]
  exact (categoryGathering _).mem_keys_entries_iff

/-- There is one group for each category that occurs, and its value is the sum over the rows of the
category. -/
theorem exists_group_iff (fields : List String) (rows : List (GroupRow α)) (category : String)
    (value : α) :
    (∃ g ∈ groups fields rows, g.category = category ∧ g.value = value) ↔
      sumOf? (rows.filter (categoryOf · = category)) = some value := by
  rw [← map_value_gather? (2 ≤ fields.length), Option.map_eq_some_iff]
  constructor
  · rintro ⟨g, hg, rfl, rfl⟩
    exact ⟨g, mem_groups_iff.mp hg, rfl⟩
  · rintro ⟨g, hg, rfl⟩
    have hcategory : g.category = category := Gathering.key_of_gather? _ hg
    exact ⟨g, mem_groups_iff.mpr (hcategory ▸ hg), hcategory, rfl⟩

/-! ## The order of cards -/

theorem precedes_iff {x y : α} {m n : String} :
    precedes x m y n = true ↔
      Figure.ranksBelow y x = true ∨ Figure.ranksBelow x y = false ∧ m ≤ n := by
  simp [precedes]

theorem precedes_trans {x y z : α} {l m n : String} (hxy : precedes x l y m = true)
    (hyz : precedes y m z n = true) : precedes x l z n = true := by
  rw [precedes_iff] at hxy hyz ⊢
  by_cases hzx : Figure.ranksBelow z x = true
  · exact .inl hzx
  · rw [Bool.not_eq_true] at hzx
    rcases hxy with hyx | ⟨hxy, hlm⟩ <;> rcases hyz with hzy | ⟨hyz, hmn⟩
    · exact absurd (Figure.ranksBelow_trans hzy hyx) (by simp [hzx])
    · exact absurd (Figure.not_ranksBelow_trans hyz hzx) (by simp [hyx])
    · exact absurd (Figure.not_ranksBelow_trans hzx hxy) (by simp [hzy])
    · exact .inr ⟨Figure.not_ranksBelow_trans hxy hyz, String.le_trans hlm hmn⟩

theorem precedes_total (x y : α) (m n : String) :
    (precedes x m y n || precedes y n x m) = true := by
  rw [Bool.or_eq_true, precedes_iff, precedes_iff]
  cases Figure.ranksBelow x y <;> cases Figure.ranksBelow y x <;> simp [String.le_total]

theorem not_ranksBelow_of_precedes {x y : α} {m n : String} (h : precedes x m y n = true) :
    Figure.ranksBelow x y = false := by
  rw [precedes_iff] at h
  rcases h with hyx | ⟨hxy, -⟩
  · by_contra hxy
    rw [Bool.not_eq_false] at hxy
    exact absurd (Figure.ranksBelow_trans hxy hyx) (by simp [Figure.ranksBelow_irrefl])
  · exact hxy

theorem name_eq_of_precedes {x y : α} {m n : String} (hxy : precedes x m y n = true)
    (hyx : precedes y n x m = true) : m = n := by
  have hrank := not_ranksBelow_of_precedes hxy
  have hrank' := not_ranksBelow_of_precedes hyx
  rw [precedes_iff, hrank', Bool.false_eq_true, false_or] at hxy
  rw [precedes_iff, hrank, Bool.false_eq_true, false_or] at hyx
  exact String.le_antisymm hxy.2 hyx.2

section Sorting

variable {ε : Type} {value : ε → α} {name : ε → String} {l l' : List ε}

theorem pairwise_mergeSort_precedes (value : ε → α) (name : ε → String) (l : List ε) :
    (l.mergeSort fun a b => precedes (value a) (name a) (value b) (name b)).Pairwise fun a b =>
      precedes (value a) (name a) (value b) (name b) = true := by
  apply List.pairwise_mergeSort
  · exact fun _ _ _ => precedes_trans
  · exact fun a b => precedes_total _ _ _ _

/-- Where names differ, what is listed says in which order. -/
theorem eq_of_pairwise_precedes
    (hl : l.Pairwise fun a b => precedes (value a) (name a) (value b) (name b) = true)
    (hl' : l'.Pairwise fun a b => precedes (value a) (name a) (value b) (name b) = true)
    (hnodup : (l.map name).Nodup) (hnodup' : (l'.map name).Nodup)
    (hmem : ∀ e, e ∈ l ↔ e ∈ l') : l = l' := by
  have hperm := (List.perm_ext_iff_of_nodup (.of_map _ hnodup) (.of_map _ hnodup')).mpr hmem
  refine hperm.eq_of_pairwise ?_ hl hl'
  intro a b ha hb hab hba
  exact List.inj_on_of_nodup_map hnodup ha ((hmem b).mpr hb) (name_eq_of_precedes hab hba)

theorem mergeSort_precedes_eq (hnodup : (l.map name).Nodup) (hnodup' : (l'.map name).Nodup)
    (hmem : ∀ e, e ∈ l ↔ e ∈ l') :
    (l.mergeSort fun a b => precedes (value a) (name a) (value b) (name b)) =
      l'.mergeSort fun a b => precedes (value a) (name a) (value b) (name b) := by
  refine eq_of_pairwise_precedes (pairwise_mergeSort_precedes value name l)
    (pairwise_mergeSort_precedes value name l') ?_ ?_ fun e => ?_
  · exact ((List.mergeSort_perm _ _).map name).nodup_iff.mpr hnodup
  · exact ((List.mergeSort_perm _ _).map name).nodup_iff.mpr hnodup'
  · rw [List.mem_mergeSort, List.mem_mergeSort, hmem]

end Sorting

theorem pairwise_cardsOf (fields : List String) (rows : List (GroupRow α))
    (threshold : Threshold α) :
    (cardsOf fields rows threshold).Pairwise fun a b =>
      precedes a.value a.category b.value b.category = true :=
  pairwise_mergeSort_precedes Card.value Card.category _

theorem exists_group_of_mem_cardsOf {fields : List String} {rows : List (GroupRow α)}
    {threshold : Threshold α} {card : Card α} (hcard : card ∈ cardsOf fields rows threshold) :
    ∃ g ∈ groups fields rows, g.card threshold = card := by
  unfold cardsOf at hcard
  rw [List.mem_mergeSort, List.mem_map] at hcard
  exact hcard

theorem isMatch_of_mem_cardsOf {fields : List String} {rows : List (GroupRow α)}
    {threshold : Threshold α} {card : Card α} (hcard : card ∈ cardsOf fields rows threshold) :
    card.isMatch = threshold.isMetBy card.value := by
  obtain ⟨g, -, rfl⟩ := exists_group_of_mem_cardsOf hcard
  rfl

theorem categories_cardsOf (fields : List String) (rows : List (GroupRow α))
    (threshold : Threshold α) :
    ((cardsOf fields rows threshold).map (·.category)).Perm
      ((groups fields rows).map (·.category)) := by
  have h := (List.mergeSort_perm ((groups fields rows).map (Group.card threshold)) fun a b =>
    precedes a.value a.category b.value b.category).map (·.category)
  rwa [List.map_map] at h

theorem nodup_categories_cardsOf (fields : List String) (rows : List (GroupRow α))
    (threshold : Threshold α) : ((cardsOf fields rows threshold).map (·.category)).Nodup :=
  (categories_cardsOf fields rows threshold).nodup_iff.mpr (nodup_categories_groups fields rows)

def cardOf (fields : List String) (threshold : Threshold α) (category : String)
    (rows : List (GroupRow α)) : Card α :=
  Group.card threshold
    { category := category
      value := rows.foldl (fun sum row => sum + row.value) 0
      parts := if 2 ≤ fields.length then partGathering.entries rows else [] }

theorem group_eq_of_gather? {fields : List String} {rows : List (GroupRow α)} {category : String}
    {g : Group α} (h : (categoryGathering (2 ≤ fields.length)).gather?
      (rows.filter (categoryOf · = category)) = some g) (threshold : Threshold α) :
    g.card threshold =
      cardOf fields threshold category (rows.filter (categoryOf · = category)) := by
  have hcategory : g.category = category := Gathering.key_of_gather? _ h
  have hsum : sumOf? (rows.filter (categoryOf · = category)) = some g.value :=
    (map_value_gather? (2 ≤ fields.length) _).symm.trans (congrArg (Option.map _) h)
  have hparts := parts_of_gather? h
  simp only [decide_eq_true_eq] at hparts
  change Group.card threshold ⟨g.category, g.value, g.parts⟩ = _
  rw [hcategory, hparts, ← foldl_of_sumOf? hsum]
  rfl

/-- There is one card for each category that occurs, which the rows of the category make. -/
theorem mem_cardsOf_iff {fields : List String} {rows : List (GroupRow α)}
    {threshold : Threshold α} {card : Card α} :
    card ∈ cardsOf fields rows threshold ↔
      (∃ row ∈ rows, categoryOf row = card.category) ∧
        card = cardOf fields threshold card.category
          (rows.filter (categoryOf · = card.category)) := by
  constructor
  · intro hcard
    obtain ⟨g, hg, rfl⟩ := exists_group_of_mem_cardsOf hcard
    exact ⟨mem_categories_groups.mp (List.mem_map_of_mem hg),
      group_eq_of_gather? (mem_groups_iff.mp hg) threshold⟩
  · rintro ⟨hcategory, hcard⟩
    have hkey : card.category ∈ (groups fields rows).map (·.category) :=
      mem_categories_groups.mpr hcategory
    obtain ⟨g, hg, heq⟩ := List.mem_map.mp hkey
    have hrows := mem_groups_iff.mp hg
    rw [heq] at hrows
    rw [hcard, ← group_eq_of_gather? hrows threshold]
    unfold cardsOf
    rw [List.mem_mergeSort]
    exact List.mem_map_of_mem hg

/-- Leaving out all rows of some categories leaves out their cards. -/
theorem cardsOf_filter (fields : List String) (rows : List (GroupRow α)) (threshold : Threshold α)
    (keep : String → Bool) :
    cardsOf fields (rows.filter fun row => keep (categoryOf row)) threshold =
      (cardsOf fields rows threshold).filter fun card => keep card.category := by
  refine eq_of_pairwise_precedes (pairwise_cardsOf _ _ _) ((pairwise_cardsOf _ _ _).filter _)
    (nodup_categories_cardsOf _ _ _)
    ((nodup_categories_cardsOf _ _ _).sublist (List.filter_sublist.map _)) fun card => ?_
  rw [List.mem_filter, mem_cardsOf_iff, mem_cardsOf_iff]
  by_cases hkeep : keep card.category = true
  · have hrows : (rows.filter fun row => keep (categoryOf row)).filter
        (categoryOf · = card.category) = rows.filter (categoryOf · = card.category) := by
      rw [List.filter_filter]
      refine List.filter_congr fun row _ => ?_
      by_cases hcategory : categoryOf row = card.category <;> simp [hcategory, hkeep]
    rw [hrows, and_iff_left hkeep]
    refine and_congr_left fun _ => exists_congr fun row => ?_
    rw [List.mem_filter]
    exact ⟨fun h => ⟨h.1.1, h.2⟩, fun h => ⟨⟨h.1, h.2 ▸ hkeep⟩, h.2⟩⟩
  · refine iff_of_false (fun h => ?_) fun h => hkeep h.2
    obtain ⟨⟨row, hrow, hcategory⟩, -⟩ := h
    exact hkeep (hcategory ▸ (List.mem_filter.mp hrow).2)

theorem cardsOf_eq_nil_iff {fields : List String} {rows : List (GroupRow α)}
    {threshold : Threshold α} : cardsOf fields rows threshold = [] ↔ rows = [] := by
  rw [← List.map_eq_nil_iff (f := Card.category), List.eq_nil_iff_forall_not_mem,
    List.eq_nil_iff_forall_not_mem]
  simp only [(categories_cardsOf fields rows threshold).mem_iff, mem_categories_groups]
  exact ⟨fun h row hrow => h _ ⟨row, hrow, rfl⟩, fun h _ ⟨row, hrow, _⟩ => h row hrow⟩

theorem select?_eq_none_iff {cards : List (Card α)} : select? cards = none ↔ cards = [] := by
  unfold select?
  dsimp only
  split
  · next hmatching =>
    refine iff_of_false (by simp) ?_
    rintro rfl
    cases hmatching
  · rw [Option.map_eq_none_iff, List.head?_eq_none_iff]

theorem ofRows?_eq_none_iff {fields : List String} {rows : List (GroupRow α)}
    {threshold : Threshold α} : ofRows? fields rows threshold = none ↔ rows = [] := by
  unfold ofRows?
  rw [Option.map_eq_none_iff, select?_eq_none_iff, cardsOf_eq_nil_iff]

end Alerting.Breakdown
