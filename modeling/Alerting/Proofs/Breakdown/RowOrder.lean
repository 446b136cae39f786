import Alerting.Proofs.Breakdown.Groups
import Alerting.Proofs.Numeric.Exact
/-!
# The order of rows

Groups and parts are gathered in the order in which the rows come, and their values are summed in
that order.  Computed exactly, neither is left to see: sums do not depend on an order, and cards and
parts are sorted by values and names, of which the names differ.
-/

namespace Alerting.Breakdown

variable {rows rows' : List (GroupRow Exact)}

theorem leftSum_eq_sum (l : List Exact) : leftSum l = l.sum := by
  cases l with
  | nil => rfl
  | cons x rest =>
      rw [leftSum, List.sum_eq_foldl, List.foldl_cons, zero_add]

theorem leftSum_eq_of_perm {l l' : List Exact} (h : l.Perm l') : leftSum l = leftSum l' := by
  rw [leftSum_eq_sum, leftSum_eq_sum, h.sum_eq]

theorem sorted_parts_eq_of_perm (h : rows.Perm rows') :
    ((partGathering.entries rows).mergeSort fun a b => precedes a.value a.label b.value b.label) =
      (partGathering.entries rows').mergeSort fun a b =>
        precedes a.value a.label b.value b.label := by
  refine mergeSort_precedes_eq (partGathering.nodup_keys_entries rows)
    (partGathering.nodup_keys_entries rows') fun part => ?_
  rw [mem_entries_partGathering, mem_entries_partGathering,
    leftSum_eq_of_perm ((h.filter _).map _)]
  simp only [h.mem_iff]

theorem cardOf_eq_of_perm (fields : List String) (threshold : Threshold Exact) (category : String)
    (h : rows.Perm rows') :
    cardOf fields threshold category rows = cardOf fields threshold category rows' := by
  have hvalue : rows.foldl (fun sum row => sum + row.value) 0 =
      rows'.foldl (fun sum row => sum + row.value) 0 := by
    refine h.foldl_eq' (fun row _ row' _ sum => ?_) 0
    exact add_right_comm _ _ _
  unfold cardOf Group.card
  dsimp only
  rw [hvalue]
  split
  · rw [sorted_parts_eq_of_perm h]
  · rfl

theorem cardsOf_eq_of_perm (fields : List String) (threshold : Threshold Exact)
    (h : rows.Perm rows') : cardsOf fields rows threshold = cardsOf fields rows' threshold := by
  refine eq_of_pairwise_precedes (pairwise_cardsOf _ _ _) (pairwise_cardsOf _ _ _)
    (nodup_categories_cardsOf _ _ _) (nodup_categories_cardsOf _ _ _) fun card => ?_
  rw [mem_cardsOf_iff, mem_cardsOf_iff, cardOf_eq_of_perm _ _ _ (h.filter _)]
  simp only [h.mem_iff]

/-- Computed exactly, a breakdown does not depend on the order of its rows. -/
theorem ofRows?_eq_of_perm (fields : List String) (threshold : Threshold Exact)
    (h : rows.Perm rows') : ofRows? fields rows threshold = ofRows? fields rows' threshold := by
  unfold ofRows?
  rw [cardsOf_eq_of_perm fields threshold h]

/-- Sales in the cities of two regions, which come to the same. -/
def evenSales : List (GroupRow Exact) :=
  [⟨["west", "hill"], Exact.ofRat 20⟩, ⟨["east", "harbor"], Exact.ofRat 10⟩,
   ⟨["west", "hill"], Exact.ofRat 5⟩, ⟨["east", "hill"], Exact.ofRat 15⟩]

theorem ofRows?_evenSales_reverse :
    let above20 : Threshold Exact := ⟨.greaterThan, some (.single (Exact.ofRat 20))⟩
    evenSales.Perm evenSales.reverse ∧
      ofRows? ["region", "city"] evenSales above20 =
        ofRows? ["region", "city"] evenSales.reverse above20 := by
  intro above20
  have hperm : evenSales.Perm evenSales.reverse := evenSales.reverse_perm.symm
  exact ⟨hperm, ofRows?_eq_of_perm ["region", "city"] above20 hperm⟩

end Alerting.Breakdown
