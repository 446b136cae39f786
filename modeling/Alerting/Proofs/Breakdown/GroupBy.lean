import Alerting.Proofs.Breakdown.Groups
/-!
# What a breakdown lists

A breakdown has one card for each category of its rows, with the sum over the rows of the category,
and one part for each label within a category.  Cards and parts are listed from the largest value to
the smallest.
-/

namespace Alerting.Breakdown

/-- Whether a value with its name is listed before another: the larger value first, in the one order
of all floats, and of equal values the lesser name. -/
def ListsBefore (x : Float) (m : String) (y : Float) (n : String) : Prop :=
  orderKey y < orderKey x ∨ orderKey x = orderKey y ∧ m ≤ n

theorem listsBefore_of_precedes {x y : Float} {m n : String} (h : precedes x m y n = true) :
    ListsBefore x m y n := by
  rcases precedes_iff.mp h with hlt | ⟨hnlt, hmn⟩
  · exact .inl (of_decide_eq_true hlt)
  · have hle : ¬orderKey x < orderKey y := of_decide_eq_false hnlt
    by_cases heq : orderKey x = orderKey y
    · exact .inr ⟨heq, hmn⟩
    · exact .inl (by omega)

/-- The rows whose first label is a category; rows without labels belong to the blank one. -/
def rowsOf (rows : List GroupRow) (category : String) : List GroupRow :=
  rows.filter (·.labels.headD "(blank)" = category)

def restLabel (row : GroupRow) : String :=
  " / ".intercalate row.labels.tail

/-- What a breakdown by so many fields says about its rows. -/
structure GroupsBy (fields : List String) (rows : List GroupRow) (b : Breakdown) : Prop where
  nodup_categories : (b.cards.map (·.category)).Nodup
  mem_categories_iff (category : String) : category ∈ b.cards.map (·.category) ↔
    ∃ row ∈ rows, row.labels.headD "(blank)" = category
  value_eq : ∀ card ∈ b.cards,
    card.value = ((rowsOf rows card.category).map (·.value)).foldl (· + ·) 0
  parts_eq_nil : fields.length < 2 → ∀ card ∈ b.cards, card.parts = []
  nodup_labels : ∀ card ∈ b.cards, (card.parts.map (·.label)).Nodup
  mem_labels_iff : 2 ≤ fields.length → ∀ card ∈ b.cards, ∀ label,
    label ∈ card.parts.map (·.label) ↔ ∃ row ∈ rowsOf rows card.category, restLabel row = label
  part_value_eq : ∀ card ∈ b.cards, ∀ part ∈ card.parts,
    part.value =
      leftSum (((rowsOf rows card.category).filter (restLabel · = part.label)).map (·.value))
  cards_ordered : b.cards.Pairwise fun a b => ListsBefore a.value a.category b.value b.category
  parts_ordered : ∀ card ∈ b.cards,
    card.parts.Pairwise fun a b => ListsBefore a.value a.label b.value b.label

/-! ## Cards -/

section Cards

variable {fields : List String} {rows : List GroupRow} {threshold : Threshold} {card : Card}

theorem value_of_mem_cardsOf (hcard : card ∈ cardsOf fields rows threshold) :
    card.value = ((rowsOf rows card.category).map (·.value)).foldl (· + ·) 0 := by
  rw [List.foldl_map]
  exact congrArg Card.value (mem_cardsOf_iff.mp hcard).2

/-- The parts of a card are gathered from the rows of its category, and sorted. -/
theorem parts_of_mem_cardsOf (hcard : card ∈ cardsOf fields rows threshold) :
    card.parts =
      (if 2 ≤ fields.length then
        partGathering.entries (rowsOf rows card.category) else []).mergeSort
        fun a b => precedes a.value a.label b.value b.label :=
  congrArg Card.parts (mem_cardsOf_iff.mp hcard).2

theorem nodup_labels_of_mem_cardsOf (hcard : card ∈ cardsOf fields rows threshold) :
    (card.parts.map (·.label)).Nodup := by
  rw [parts_of_mem_cardsOf hcard, ((List.mergeSort_perm _ _).map _).nodup_iff]
  split
  · exact partGathering.nodup_keys_entries _
  · exact List.nodup_nil

theorem mem_labels_of_mem_cardsOf (hfields : 2 ≤ fields.length)
    (hcard : card ∈ cardsOf fields rows threshold) {label : String} :
    label ∈ card.parts.map (·.label) ↔
      ∃ row ∈ rowsOf rows card.category, restLabel row = label := by
  rw [parts_of_mem_cardsOf hcard, ((List.mergeSort_perm _ _).map _).mem_iff, if_pos hfields]
  exact partGathering.mem_keys_entries_iff

theorem parts_eq_nil_of_mem_cardsOf (hfields : fields.length < 2)
    (hcard : card ∈ cardsOf fields rows threshold) : card.parts = [] := by
  rw [parts_of_mem_cardsOf hcard, if_neg (by omega)]
  exact List.mergeSort_nil

theorem value_of_mem_parts (hcard : card ∈ cardsOf fields rows threshold) {part : Part}
    (hpart : part ∈ card.parts) :
    part.value =
      leftSum (((rowsOf rows card.category).filter (restLabel · = part.label)).map (·.value)) := by
  rw [parts_of_mem_cardsOf hcard, List.mem_mergeSort] at hpart
  split at hpart
  · exact (mem_entries_partGathering.mp hpart).2
  · exact absurd hpart List.not_mem_nil

theorem parts_ordered_of_mem_cardsOf (hcard : card ∈ cardsOf fields rows threshold) :
    card.parts.Pairwise fun a b => ListsBefore a.value a.label b.value b.label := by
  rw [parts_of_mem_cardsOf hcard]
  exact (pairwise_mergeSort_precedes Part.value Part.label _).imp listsBefore_of_precedes

end Cards

/-! ## Breakdowns -/

theorem groupsBy_of_ofRows? {fields : List String} {rows : List GroupRow} {threshold : Threshold}
    {b : Breakdown} (h : ofRows? fields rows threshold = some b) : GroupsBy fields rows b := by
  obtain ⟨s, -, rfl⟩ := Option.map_eq_some_iff.mp h
  have hcategories := categories_cardsOf fields rows threshold
  exact {
    nodup_categories := nodup_categories_cardsOf fields rows threshold
    mem_categories_iff := fun _ => hcategories.mem_iff.trans mem_categories_groups
    value_eq := fun _ => value_of_mem_cardsOf
    parts_eq_nil := fun hfields _ => parts_eq_nil_of_mem_cardsOf hfields
    nodup_labels := fun _ => nodup_labels_of_mem_cardsOf
    mem_labels_iff := fun hfields _ hcard _ => mem_labels_of_mem_cardsOf hfields hcard
    part_value_eq := fun _ hcard _ => value_of_mem_parts hcard
    cards_ordered := (pairwise_cardsOf fields rows threshold).imp listsBefore_of_precedes
    parts_ordered := fun _ => parts_ordered_of_mem_cardsOf }

/-- A breakdown groups its rows by their labels, and there is none exactly if there are no rows. -/
theorem ofRows?_groupsBy (fields : List String) (rows : List GroupRow) (threshold : Threshold) :
    match ofRows? fields rows threshold with
    | none => rows = []
    | some b => rows ≠ [] ∧ GroupsBy fields rows b := by
  cases hb : ofRows? fields rows threshold with
  | none => exact ofRows?_eq_none_iff.mp hb
  | some b =>
      refine ⟨fun hrows => ?_, groupsBy_of_ofRows? hb⟩
      rw [ofRows?_eq_none_iff.mpr hrows] at hb
      cases hb

end Alerting.Breakdown
