import Alerting.Proofs.Breakdown.GroupBy
import Mathlib.Data.List.Dedup
import Mathlib.Data.Set.Function
/-!
# Parts and tuples of labels

A part is known by its label alone, in which the labels of a row behind the first one are joined.
So there is one part for each text that they join to, with the sum over all rows with this text.
That is one part for each tuple of labels unless two tuples of a category join to the same text,
which only labels can do that bring a piece of the separator themselves.
-/

namespace Alerting.Breakdown

/-- Whether the parts of a card are one for each key that its rows have, with the sum over the rows
with this key. -/
def SplitsBy {κ : Type} [DecidableEq κ] (key : GroupRow → κ) (label : κ → String)
    (rows : List GroupRow) (card : Card) : Prop :=
  let rows := rowsOf rows card.category
  card.parts.Perm ((rows.map key).dedup.map fun k =>
    ⟨label k, leftSum ((rows.filter (key · = k)).map (·.value))⟩)

def restOf (row : GroupRow) : List String :=
  row.labels.tail

/-- The tuples of labels behind the first one that occur in a category. -/
def tuplesOf (rows : List GroupRow) (category : String) : Set (List String) :=
  {tuple | ∃ row ∈ rowsOf rows category, restOf row = tuple}

/-- Whether the separator does not begin within a label that it follows: the label neither contains
it nor ends with its beginning. -/
def IsApart (label : String) : Prop :=
  ¬" / ".toList <:+: label.toList ∧ ¬" /".toList <:+ label.toList

/-! ## Joining -/

section Cutting

variable {γ : Type} {sep l l' r r' : List γ}

/-- A shorter beginning with its separator would lie within the longer one. -/
theorem length_le_of_separator_first (hsep : sep ≠ []) (hl' : ¬sep <:+: l' ++ sep.dropLast)
    (h : l ++ sep ++ r = l' ++ sep ++ r') : l'.length ≤ l.length := by
  by_contra hlt
  have hlast : sep.dropLast ++ [sep.getLast hsep] = sep := List.dropLast_append_getLast hsep
  have hlonger : l' ++ sep.dropLast <+: l ++ sep ++ r := by
    refine ⟨[sep.getLast hsep] ++ r', ?_⟩
    rw [h, ← List.append_assoc, List.append_assoc l', hlast]
  have hprefix : l ++ sep <+: l' ++ sep.dropLast := by
    refine List.prefix_of_prefix_length_le (List.prefix_append (l ++ sep) r) hlonger ?_
    rw [List.length_append, List.length_append, List.length_dropLast]
    omega
  exact hl' ((List.suffix_append l sep).isInfix.trans hprefix.isInfix)

/-- A text is cut in one way where a separator first occurs. -/
theorem append_cancel_of_separator_first (hsep : sep ≠ []) (hl : ¬sep <:+: l ++ sep.dropLast)
    (hl' : ¬sep <:+: l' ++ sep.dropLast) (h : l ++ sep ++ r = l' ++ sep ++ r') :
    l = l' ∧ r = r' := by
  have hle : l.length ≤ l'.length := length_le_of_separator_first hsep hl h.symm
  have hge : l'.length ≤ l.length := length_le_of_separator_first hsep hl' h
  have hlength := le_antisymm hle hge
  rw [List.append_assoc, List.append_assoc] at h
  obtain ⟨rfl, hrest⟩ := List.append_inj h hlength
  exact ⟨rfl, List.append_cancel_left hrest⟩

end Cutting

theorem IsApart.separator_first {label : String} (h : IsApart label) :
    ¬" / ".toList <:+: label.toList ++ " / ".toList.dropLast := by
  intro hwithin
  have htext : label.toList ++ " / ".toList.dropLast = label.toList ++ [' '] ++ ['/'] := by
    rw [List.append_assoc]
    rfl
  rw [htext, List.infix_concat_iff, List.infix_concat_iff] at hwithin
  rcases hwithin with hends | hends | hcontains
  · -- the separator does not end with a slash
    rcases List.suffix_concat_iff.mp hends with hnil | ⟨t, ht, -⟩
    · cases hnil
    · have hlast := congrArg List.getLast? ht
      rw [List.getLast?_concat] at hlast
      cases hlast
  · rcases List.suffix_concat_iff.mp hends with hnil | ⟨t, ht, hlabel⟩
    · cases hnil
    · have hbeginning := congrArg List.dropLast ht
      rw [List.dropLast_concat] at hbeginning
      rw [← hbeginning] at hlabel
      exact h.2 hlabel
  · exact h.1 hcontains

theorem IsApart.cancel {label label' rest rest' : String} (hlabel : IsApart label)
    (hlabel' : IsApart label') (h : label ++ " / " ++ rest = label' ++ " / " ++ rest') :
    label = label' ∧ rest = rest' := by
  have htexts := congrArg String.toList h
  simp only [String.toList_append] at htexts
  obtain ⟨heq, hrest⟩ := append_cancel_of_separator_first (by decide) hlabel.separator_first
    hlabel'.separator_first htexts
  exact ⟨String.toList_injective heq, String.toList_injective hrest⟩

/-- What is joined can be told apart again where no label but the last disturbs the separator. -/
theorem intercalate_injective {tuple tuple' : List String}
    (hlength : tuple.length = tuple'.length) (hapart : ∀ label ∈ tuple.dropLast, IsApart label)
    (hapart' : ∀ label ∈ tuple'.dropLast, IsApart label)
    (h : " / ".intercalate tuple = " / ".intercalate tuple') : tuple = tuple' := by
  induction tuple generalizing tuple' with
  | nil => exact (List.length_eq_zero_iff.mp hlength.symm).symm
  | cons label rest ih =>
      obtain ⟨label', rest', rfl⟩ := List.exists_cons_of_length_eq_add_one hlength.symm
      have hrest : rest.length = rest'.length := Nat.succ.inj hlength
      cases rest with
      | nil =>
          rw [List.length_eq_zero_iff.mp hrest.symm] at h ⊢
          rw [String.intercalate_singleton, String.intercalate_singleton] at h
          rw [h]
      | cons next others =>
          obtain ⟨next', others', rfl⟩ := List.exists_cons_of_length_eq_add_one hrest.symm
          rw [List.dropLast_cons_cons, List.forall_mem_cons] at hapart hapart'
          rw [String.intercalate_cons_cons, String.intercalate_cons_cons] at h
          obtain ⟨rfl, hjoin⟩ := hapart.1.cancel hapart'.1 h
          rw [ih hrest hapart.2 hapart'.2 hjoin]

/-! ## Splitting -/

section Splitting

variable {fields : List String} {rows : List GroupRow} {threshold : Threshold} {card : Card}

theorem mem_parts_iff (hfields : 2 ≤ fields.length) (hcard : card ∈ cardsOf fields rows threshold)
    {part : Part} :
    part ∈ card.parts ↔
      (∃ row ∈ rowsOf rows card.category, restLabel row = part.label) ∧
        part.value =
          leftSum (((rowsOf rows card.category).filter (restLabel · = part.label)).map
            (·.value)) := by
  rw [parts_of_mem_cardsOf hcard, List.mem_mergeSort, if_pos hfields]
  exact mem_entries_partGathering

/-- Keys that do not share a label gather the rows that labels do. -/
theorem filter_key_eq {κ : Type} [DecidableEq κ] {key : GroupRow → κ} {label : κ → String}
    (hlabel : ∀ row, label (key row) = restLabel row)
    (hinj : Set.InjOn label {k | ∃ row ∈ rows, key row = k}) {row : GroupRow} (hrow : row ∈ rows) :
    rows.filter (key · = key row) = rows.filter (restLabel · = restLabel row) := by
  refine List.filter_congr fun other hother => decide_eq_decide.mpr ?_
  rw [← hlabel, ← hlabel]
  exact ⟨congrArg label, fun heq => hinj ⟨other, hother, rfl⟩ ⟨row, hrow, rfl⟩ heq⟩

/-- A key from which the label of a part is made splits a card exactly if it makes no label twice.
-/
theorem splitsBy_iff {κ : Type} [DecidableEq κ] {key : GroupRow → κ} {label : κ → String}
    (hfields : 2 ≤ fields.length) (hcard : card ∈ cardsOf fields rows threshold)
    (hlabel : ∀ row, label (key row) = restLabel row) :
    SplitsBy key label rows card ↔
      Set.InjOn label {k | ∃ row ∈ rowsOf rows card.category, key row = k} := by
  have hnodup := nodup_labels_of_mem_cardsOf hcard
  have hkeys : ∀ k, k ∈ ((rowsOf rows card.category).map key).dedup ↔
      ∃ row ∈ rowsOf rows card.category, key row = k := by
    intro k
    rw [List.mem_dedup, List.mem_map]
  unfold SplitsBy
  dsimp only
  constructor
  · intro hperm k hk k' hk' heq
    rw [(hperm.map (·.label)).nodup_iff, List.map_map] at hnodup
    exact List.inj_on_of_nodup_map hnodup ((hkeys k).mpr hk) ((hkeys k').mpr hk') heq
  · intro hinj
    rw [List.perm_ext_iff_of_nodup (.of_map _ hnodup)]
    · intro part
      rw [mem_parts_iff hfields hcard, List.mem_map]
      constructor
      · rintro ⟨⟨row, hrow, hrest⟩, hvalue⟩
        refine ⟨key row, (hkeys _).mpr ⟨row, hrow, rfl⟩, ?_⟩
        rw [filter_key_eq hlabel hinj hrow, hlabel, hrest, ← hvalue]
      · rintro ⟨k, hk, rfl⟩
        obtain ⟨row, hrow, rfl⟩ := (hkeys k).mp hk
        rw [hlabel, filter_key_eq hlabel hinj hrow]
        exact ⟨⟨row, hrow, rfl⟩, rfl⟩
    · refine (List.nodup_dedup _).map_on fun k hk k' hk' heq => ?_
      exact hinj ((hkeys k).mp hk) ((hkeys k').mp hk') (congrArg Part.label heq)

/-- The tuples of a category have one length, so they can be told apart if their labels are. -/
theorem injOn_tuplesOf (hlabels : ∀ row ∈ rows, row.labels.length = fields.length)
    {category : String}
    (hapart : ∀ tuple ∈ tuplesOf rows category, ∀ label ∈ tuple.dropLast, IsApart label) :
    Set.InjOn (" / ".intercalate ·) (tuplesOf rows category) := by
  have hlength : ∀ tuple ∈ tuplesOf rows category, tuple.length = fields.length - 1 := by
    rintro _ ⟨row, hrow, rfl⟩
    rw [restOf, List.length_tail, hlabels row (List.mem_filter.mp hrow).1]
  intro tuple htuple tuple' htuple' heq
  exact intercalate_injective ((hlength _ htuple).trans (hlength _ htuple').symm)
    (hapart _ htuple) (hapart _ htuple') heq

/-- With two fields a tuple has one label, which is its last. -/
theorem dropLast_of_mem_tuplesOf (hlabels : ∀ row ∈ rows, row.labels.length = fields.length)
    (htwo : fields.length = 2) {category : String} {tuple : List String}
    (htuple : tuple ∈ tuplesOf rows category) : tuple.dropLast = [] := by
  obtain ⟨row, hrow, rfl⟩ := htuple
  apply List.eq_nil_of_length_eq_zero
  rw [restOf, List.length_dropLast, List.length_tail, hlabels row (List.mem_filter.mp hrow).1, htwo]

end Splitting

/-- A card has one part for each text that the labels behind the first one join to.  It has one for
each tuple of them exactly if no two tuples join to the same text, which holds with two fields, and
where no label but the last of a tuple disturbs the separator. -/
theorem parts_split {fields : List String} {rows : List GroupRow} (threshold : Threshold)
    (hfields : 2 ≤ fields.length) (hlabels : ∀ row ∈ rows, row.labels.length = fields.length) :
    ∀ b ∈ ofRows? fields rows threshold, ∀ card ∈ b.cards,
      SplitsBy restLabel id rows card ∧
        (SplitsBy restOf (" / ".intercalate ·) rows card ↔
          Set.InjOn (" / ".intercalate ·) (tuplesOf rows card.category)) ∧
        (fields.length = 2 ∨
            (∀ tuple ∈ tuplesOf rows card.category, ∀ label ∈ tuple.dropLast, IsApart label) →
          SplitsBy restOf (" / ".intercalate ·) rows card) := by
  intro b hb card hcard
  obtain ⟨s, -, rfl⟩ := Option.map_eq_some_iff.mp hb
  have htexts : SplitsBy restLabel id rows card ↔ Set.InjOn id _ :=
    splitsBy_iff hfields hcard fun _ => rfl
  have htuples : SplitsBy restOf (" / ".intercalate ·) rows card ↔
      Set.InjOn (" / ".intercalate ·) (tuplesOf rows card.category) :=
    splitsBy_iff hfields hcard fun _ => rfl
  refine ⟨htexts.mpr (Set.injOn_id _), htuples, fun hapart => ?_⟩
  refine htuples.mpr (injOn_tuplesOf hlabels ?_)
  rcases hapart with htwo | hapart
  · intro tuple htuple label hlabel
    rw [dropLast_of_mem_tuplesOf hlabels htwo htuple] at hlabel
    exact absurd hlabel List.not_mem_nil
  · exact hapart

def shopSales : List GroupRow :=
  [⟨["east", "harbor", "web"], 100⟩, ⟨["east", "hill", "store"], 300⟩,
   ⟨["east", "harbor", "web"], 50⟩]

theorem parts_split_shopSales :
    let fields := ["region", "city", "shop"]
    let above10 : Threshold := ⟨.greaterThan, some (.single 10)⟩
    2 ≤ fields.length ∧ (∀ row ∈ shopSales, row.labels.length = fields.length) ∧
      ∃ b ∈ ofRows? fields shopSales above10, ∃ card ∈ b.cards, card.category = "east" ∧
        card.parts.Perm [⟨"hill / store", 300⟩, ⟨"harbor / web", 150⟩] := by
  intro fields above10
  have hlabels : ∀ row ∈ shopSales, row.labels.length = fields.length := by decide
  have hapart : ∀ row ∈ shopSales, ∀ label ∈ (restOf row).dropLast, IsApart label := by
    unfold IsApart
    decide +kernel
  obtain ⟨b, hb⟩ : ∃ b, ofRows? fields shopSales above10 = some b :=
    Option.ne_none_iff_exists'.mp (mt ofRows?_eq_none_iff.mp (List.cons_ne_nil _ _))
  obtain ⟨card, hcard, hcategory⟩ := List.mem_map.mp
    (((groupsBy_of_ofRows? hb).mem_categories_iff "east").mpr ⟨_, List.mem_cons_self, rfl⟩)
  refine ⟨by decide, hlabels, b, hb, card, hcard, hcategory, ?_⟩
  have hsplit := (parts_split above10 (by decide) hlabels b hb card hcard).2.2
  have hparts : SplitsBy restOf (" / ".intercalate ·) shopSales card := by
    apply hsplit
    right
    rintro _ ⟨row, hrow, rfl⟩
    exact hapart row (List.mem_filter.mp hrow).1
  unfold SplitsBy at hparts
  rw [hcategory] at hparts
  exact hparts.trans (by decide +kernel)

/-- Two tuples with one text, which labels with a slash allow, have one part. -/
theorem not_forall_splitsBy_restOf :
    ¬∀ (fields : List String) (rows : List GroupRow) (threshold : Threshold),
      2 ≤ fields.length → (∀ row ∈ rows, row.labels.length = fields.length) →
        ∀ b ∈ ofRows? fields rows threshold, ∀ card ∈ b.cards,
          SplitsBy restOf (" / ".intercalate ·) rows card := by
  intro h
  let rows : List GroupRow := [⟨["east", "a / b", "c"], 1⟩, ⟨["east", "a", "b / c"], 2⟩]
  let above10 : Threshold := ⟨.greaterThan, some (.single 10)⟩
  have hb : ofRows? ["region", "city", "shop"] rows above10 =
      some ⟨["region", "city", "shop"], [⟨"east", 3, false, [⟨"a / b / c", 3⟩]⟩],
        .ofNoMatch "east" 3⟩ := by
    decide +kernel
  have hperm := h _ _ _ (by decide) (by decide) _ hb _ List.mem_cons_self
  exact absurd hperm.length_eq (by decide +kernel)

end Alerting.Breakdown
