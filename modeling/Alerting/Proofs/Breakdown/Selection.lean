import Alerting.Proofs.Breakdown.Cards
import Alerting.Proofs.Numeric.NegativeZero
/-!
# What a breakdown selects

A breakdown reports the largest of its matching cards with the sum over all of them, or the largest
of all cards where none matches.  Cards are sorted by the one order of all floats, in which the
negative zero has a place of its own; but the value of a card is a sum that starts at zero, so the
first card is also the largest one by value, and the one with the least name among equal ones.
-/

namespace Alerting.Breakdown

open Numeric

/-- Whether a card has the largest value of some cards, and the least category where others have
the same value. -/
def IsLargest (cards : List Card) (top : Card) : Prop :=
  top ∈ cards ∧ ∀ card ∈ cards,
    card.value ≤ top.value ∧ (top.value ≤ card.value → top.category ≤ card.category)

def matching (threshold : Threshold) (cards : List Card) : List Card :=
  cards.filter (threshold.isMetBy ·.value)

/-- What a selection says about the cards that it is made among.  Where a value is no number, the
first card in the order of all floats counts as the largest. -/
def Selection.Reports (threshold : Threshold) (cards : List Card) : Selection → Prop
  | ofMatches category kpi =>
    (∃ best, IsLargest (matching threshold cards) best ∧ best.category = category) ∧
      kpi = ((matching threshold cards).map (·.value)).foldl (· + ·) (-0.0)
  | ofNoMatch category value =>
    ∃ top ∈ cards, top.category = category ∧ top.value = value ∧
      (∀ card ∈ cards, ListsBefore top.value top.category card.value card.category) ∧
      ((∀ card ∈ cards, card.value.isNaN = false) → IsLargest cards top)

/-! ## The largest card -/

section Largest

variable {fields : List String} {rows : List GroupRow} {threshold : Threshold}

theorem ne_negZero_of_mem_cardsOf {card : Card} (hcard : card ∈ cardsOf fields rows threshold) :
    card.value ≠ -0.0 := by
  rw [value_of_mem_cardsOf hcard]
  exact FloatOrder.foldl_add_ne_negZero _ (by decide)

theorem name_le_of_precedes {x y : Float} {m n : String} (hx : x ≠ -0.0) (hy : y ≠ -0.0)
    (hxnumber : x.isNaN = false) (hynumber : y.isNaN = false) (h : precedes x m y n = true)
    (hle : x ≤ y) : m ≤ n := by
  have hge : y ≤ x := le_of_precedes hxnumber hynumber h
  rw [FloatOrder.le_iff hxnumber hynumber] at hle
  rw [FloatOrder.le_iff hynumber hxnumber] at hge
  have hkey : orderKey x = orderKey y := by
    rw [FloatOrder.orderKey_eq hx, FloatOrder.orderKey_eq hy, Int.le_antisymm hle hge]
  rcases precedes_iff.mp h with hlt | ⟨-, hmn⟩
  · have hlt : orderKey y < orderKey x := of_decide_eq_true hlt
    omega
  · exact hmn

theorem isLargest_of_sublist {top : Card} {rest : List Card}
    (hsub : (top :: rest).Sublist (cardsOf fields rows threshold))
    (hnumber : ∀ card ∈ top :: rest, card.value.isNaN = false) : IsLargest (top :: rest) top := by
  have hordered := (pairwise_cardsOf fields rows threshold).sublist hsub
  rw [List.pairwise_cons] at hordered
  have htop := hnumber top List.mem_cons_self
  refine ⟨List.mem_cons_self, fun card hcard => ?_⟩
  rcases List.mem_cons.mp hcard with rfl | hrest
  · exact ⟨FloatOrder.le_refl htop, fun _ => String.le_refl _⟩
  · have hprecedes := hordered.1 card hrest
    refine ⟨le_of_precedes htop (hnumber card hcard) hprecedes, ?_⟩
    exact name_le_of_precedes (ne_negZero_of_mem_cardsOf (hsub.subset List.mem_cons_self))
      (ne_negZero_of_mem_cardsOf (hsub.subset hcard)) htop (hnumber card hcard) hprecedes

end Largest

/-! ## The selection -/

section Selecting

variable {fields : List String} {rows : List GroupRow} {threshold : Threshold} {s : Selection}

theorem filter_isMatch_cardsOf :
    (cardsOf fields rows threshold).filter (·.isMatch) =
      matching threshold (cardsOf fields rows threshold) :=
  List.filter_congr fun _ hcard => isMatch_of_mem_cardsOf hcard

theorem isMatch_iff_of_select? (h : select? (cardsOf fields rows threshold) = some s) :
    s.isMatch = true ↔
      ∃ card ∈ cardsOf fields rows threshold, threshold.isMetBy card.value = true := by
  rw [isMatch_of_select? h, List.any_eq_true]
  refine exists_congr fun card => and_congr_right fun hcard => ?_
  rw [isMatch_of_mem_cardsOf hcard]

theorem reports_of_select? (h : select? (cardsOf fields rows threshold) = some s) :
    s.Reports threshold (cardsOf fields rows threshold) := by
  unfold select? at h
  dsimp only at h
  rw [filter_isMatch_cardsOf] at h
  split at h
  · next best rest hmatching =>
    cases h
    refine ⟨⟨best, ?_, rfl⟩, rfl⟩
    have hsub : (matching threshold (cardsOf fields rows threshold)).Sublist _ :=
      List.filter_sublist
    rw [hmatching] at hsub ⊢
    refine isLargest_of_sublist hsub fun card hcard => ?_
    -- a value that meets a threshold is finite
    rw [← hmatching] at hcard
    exact FloatOrder.isNaN_of_isFinite (isFinite_of_isMetBy (List.mem_filter.mp hcard).2)
  · obtain ⟨top, htop, rfl⟩ := Option.map_eq_some_iff.mp h
    obtain ⟨rest, hcards⟩ := List.head?_eq_some_iff.mp htop
    have hordered := pairwise_cardsOf fields rows threshold
    have hsub : (top :: rest).Sublist (cardsOf fields rows threshold) :=
      hcards ▸ List.Sublist.refl (top :: rest)
    rw [hcards, List.pairwise_cons] at hordered
    rw [hcards]
    refine ⟨top, List.mem_cons_self, rfl, rfl, ?_, isLargest_of_sublist hsub⟩
    rw [List.forall_mem_cons]
    exact ⟨.inr ⟨rfl, String.le_refl _⟩, fun card hcard =>
      listsBefore_of_precedes (hordered.1 card hcard)⟩

/-- Cards that do not match have no part in what is reported for matching ones. -/
theorem select?_filter {cards : List Card} {keep : Card → Bool}
    (hkeep : ∀ card ∈ cards, card.isMatch = true → keep card = true)
    (hmatch : ∃ card ∈ cards, card.isMatch = true) :
    select? (cards.filter keep) = select? cards := by
  have hfilter : (cards.filter keep).filter (·.isMatch) = cards.filter (·.isMatch) := by
    rw [List.filter_filter]
    refine List.filter_congr fun card hcard => ?_
    cases hm : card.isMatch with
    | false => rfl
    | true => exact hkeep card hcard hm
  unfold select?
  dsimp only
  rw [hfilter]
  split
  · rfl
  · next hnil =>
    obtain ⟨card, hcard, hm⟩ := hmatch
    exact absurd hm (List.filter_eq_nil_iff.mp hnil card hcard)

end Selecting

/-- What a breakdown reports: if some card meets the threshold, the largest of those with the sum
over exactly those, on which the rows of other categories have no influence; and otherwise the
largest of all cards. -/
theorem ofRows?_selects (fields : List String) (rows : List GroupRow) (threshold : Threshold) :
    match ofRows? fields rows threshold with
    | none => rows = []
    | some b =>
      rows ≠ [] ∧
        (b.selection.isMatch = true ↔
          ∃ card ∈ b.cards, threshold.isMetBy card.value = true) ∧
        b.selection.Reports threshold b.cards ∧
        ((∀ row ∈ rows, row.value.isFinite = true) →
          ∀ card ∈ b.cards, card.value.isNaN = false) ∧
        ∀ keep : String → Bool,
          (∀ card ∈ b.cards, threshold.isMetBy card.value = true → keep card.category = true) →
          b.selection.isMatch = true →
          (ofRows? fields (rows.filter fun row => keep (row.labels.headD "(blank)"))
            threshold).map (·.selection) = some b.selection := by
  cases hb : ofRows? fields rows threshold with
  | none => exact ofRows?_eq_none_iff.mp hb
  | some b =>
      obtain ⟨s, hs, rfl⟩ := Option.map_eq_some_iff.mp hb
      dsimp only
      have hrows : rows ≠ [] := by
        intro hnil
        rw [ofRows?_eq_none_iff.mpr hnil] at hb
        cases hb
      refine ⟨hrows, isMatch_iff_of_select? hs, reports_of_select? hs,
        fun hfinite card => isNaN_of_mem_cardsOf hfinite, fun keep hkeep hmatch => ?_⟩
      have hselect : select? ((cardsOf fields rows threshold).filter fun card =>
          keep card.category) = select? (cardsOf fields rows threshold) :=
        select?_filter (fun card hcard hm => hkeep card hcard (isMatch_of_mem_cardsOf hcard ▸ hm))
          (List.any_eq_true.mp (isMatch_of_select? hs ▸ hmatch))
      unfold ofRows?
      dsimp only
      rw [Option.map_map]
      change Option.map id (select? (cardsOf fields
        (rows.filter fun row => keep (categoryOf row)) threshold)) = some s
      rw [Option.map_id, id, cardsOf_filter, hselect, hs]

end Alerting.Breakdown
