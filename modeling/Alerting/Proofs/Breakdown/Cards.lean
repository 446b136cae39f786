import Alerting.Proofs.Breakdown.GroupBy
import Alerting.Proofs.Breakdown.Reading
import Alerting.Proofs.Dialogue
import Alerting.Proofs.Numeric.FloatOrder
/-!
# The cards of a breakdown

Cells are finite and sums of them are numbers, so the cards of a breakdown can be ordered by value.
`Agrees` collects what a breakdown says about the threshold that it was made for.
-/

namespace Alerting.Breakdown

open Query Numeric

/-! ## The values of cards -/

theorem isFinite_of_isMetBy {t : Threshold} {x : Float} (h : t.isMetBy x = true) :
    x.isFinite = true := by
  obtain ⟨bound, -, hholds⟩ := (Option.any_eq_true _ _).mp h
  exact (Bool.and_eq_true_iff.mp hholds).1

theorem isFinite_of_mem_readRows {result : Result} {fields : List String} {row : GroupRow}
    (hrow : row ∈ readRows result fields) : row.value.isFinite = true := by
  obtain ⟨_, -, hreading⟩ := exists_isReading hrow
  obtain ⟨cell, -, hvalue⟩ := hreading.value
  rw [hvalue]
  exact Json.isFinite_toFloat cell

theorem isNaN_of_mem_cardsOf {fields : List String} {rows : List GroupRow} {threshold : Threshold}
    (hrows : ∀ row ∈ rows, row.value.isFinite = true) {card : Card}
    (hcard : card ∈ cardsOf fields rows threshold) : card.value.isNaN = false := by
  rw [value_of_mem_cardsOf hcard]
  apply FloatOrder.isNaN_foldl_add _ (by decide)
  rw [List.forall_mem_map]
  exact fun row hrow => hrows row (List.mem_of_mem_filter hrow)

/-! ## The order of cards -/

/-- What stands in one place of all orders is also ordered as a number. -/
theorem signedMagnitude_le_of_orderKey_le {x y : Float} (h : orderKey x ≤ orderKey y) :
    FloatOrder.signedMagnitude x ≤ FloatOrder.signedMagnitude y := by
  have hx := x.toBits.toNat_lt
  have hy := y.toBits.toNat_lt
  unfold orderKey at h
  unfold FloatOrder.signedMagnitude FloatOrder.signOf FloatOrder.magnitude
  simp only [UInt64.toNat_toBitVec, Nat.pow_eq] at h ⊢
  split_ifs at h ⊢ <;> dsimp only [Float.Model.UnpackedFloat.Sign.apply] <;> omega

theorem le_of_precedes {x y : Float} {m n : String} (hx : x.isNaN = false) (hy : y.isNaN = false)
    (h : precedes x m y n = true) : y ≤ x := by
  rw [FloatOrder.le_iff hy hx]
  apply signedMagnitude_le_of_orderKey_le
  have hrank : ¬orderKey x < orderKey y := of_decide_eq_false (not_ranksBelow_of_precedes h)
  omega

/-! ## The selection -/

theorem isMatch_of_select? {cards : List Card} {s : Selection} (h : select? cards = some s) :
    s.isMatch = cards.any (·.isMatch) := by
  unfold select? at h
  dsimp only at h
  split at h
  · next best rest hmatching =>
    have hbest : best ∈ cards.filter (·.isMatch) := hmatching ▸ List.mem_cons_self
    cases h
    rw [List.mem_filter] at hbest
    exact (List.any_eq_true.mpr ⟨best, hbest⟩).symm
  · next hmatching =>
    obtain ⟨top, -, rfl⟩ := Option.map_eq_some_iff.mp h
    rw [List.filter_eq_nil_iff] at hmatching
    exact (List.any_eq_false.mpr hmatching).symm

theorem head?_of_select? {cards : List Card} {s : Selection} (h : select? cards = some s)
    (hmatch : s.isMatch = false) : ∃ top, cards.head? = some top ∧ s.kpi = top.value := by
  unfold select? at h
  dsimp only at h
  split at h
  · cases h
    cases hmatch
  · obtain ⟨top, htop, rfl⟩ := Option.map_eq_some_iff.mp h
    exact ⟨top, htop, rfl⟩

theorem select?_nil {α : Type} [Figure α] : select? ([] : List (Card α)) = none := rfl

/-! ## Breakdowns -/

theorem isActive_iff {fields : List String} {filter : Filter} :
    isActive fields filter = true ↔ fields ≠ [] ∧ ∀ field ∈ fields, filter.get? field = none := by
  simp [isActive, Dict.contains]

/-- What a breakdown says about a threshold. -/
structure Agrees (b : Breakdown) (threshold : Threshold) : Prop where
  cards_ne_nil : b.cards ≠ []
  /-- Every card says whether its value meets the threshold. -/
  isMatch_eq : ∀ card ∈ b.cards, card.isMatch = threshold.isMetBy card.value
  fires_eq : b.fires = b.cards.any (·.isMatch)
  /-- Where no card matches, the first one is reported, and no other has a larger value. -/
  kpi_eq : b.fires = false → ∃ top rest, b.cards = top :: rest ∧ b.kpi = top.value ∧
    ∀ card ∈ b.cards, card.value ≤ top.value

theorem agrees_of_ofRows? {fields : List String} {rows : List GroupRow} {threshold : Threshold}
    {b : Breakdown} (hrows : ∀ row ∈ rows, row.value.isFinite = true)
    (h : ofRows? fields rows threshold = some b) : b.Agrees threshold := by
  obtain ⟨s, hs, rfl⟩ := Option.map_eq_some_iff.mp h
  have hnumber : ∀ card ∈ cardsOf fields rows threshold, card.value.isNaN = false :=
    fun _ => isNaN_of_mem_cardsOf hrows
  refine ⟨?_, ?_, isMatch_of_select? hs, ?_⟩
  · intro hnil
    dsimp only at hnil
    rw [hnil, select?_nil] at hs
    cases hs
  · exact fun card => isMatch_of_mem_cardsOf
  · intro hfires
    obtain ⟨top, htop, hkpi⟩ := head?_of_select? hs hfires
    obtain ⟨rest, hcards⟩ := List.head?_eq_some_iff.mp htop
    have hordered := pairwise_cardsOf fields rows threshold
    rw [hcards, List.pairwise_cons] at hordered
    rw [hcards, List.forall_mem_cons] at hnumber
    refine ⟨top, rest, hcards, hkpi, ?_⟩
    intro card hcard
    dsimp only at hcard
    rw [hcards, List.mem_cons] at hcard
    rcases hcard with rfl | hcard
    · exact FloatOrder.le_refl hnumber.1
    · exact le_of_precedes hnumber.1 (hnumber.2 card hcard) (hordered.1 card hcard)

/-! ## Asking -/

section Asking

variable {rely : Request → Answer → Prop} (k : Kpi) (fields : List String)

theorem ensures_askRows (strategy : Strategy) :
    (askRows k fields strategy).Ensures rely fun rows? : Except ResolveError (List GroupRow) =>
      ∀ rows, rows? = .ok rows → ∀ row ∈ rows, row.value.isFinite = true := by
  unfold askRows
  cases strategy
  all_goals
    dsimp only
    rw [Dialogue.ensures_bind]
    apply Dialogue.ensures_of_forall
    intro answer
    cases answer with
    | error failure => exact fun rows h => nomatch h
    | ok result =>
        rw [Dialogue.ensures_pure]
        intro rows h row hrow
        split at h
        · cases h
        · cases h
          exact isFinite_of_mem_readRows hrow

/-- The rows that a breakdown is made of: those that the configured strategy yields, or else those
that the other one yields. -/
def firstRows (k : Kpi) (fields : List String) : Asking (Except ResolveError (List GroupRow)) := do
  match ← askRows k fields k.strategy with
  | .ok rows => pure (.ok rows)
  | .error _ => askRows k fields k.strategy.other

theorem resolve?_eq (threshold : Threshold) :
    resolve? k fields threshold = do
      return (← firstRows k fields).bind (ofAnswer k.source fields · threshold) := by
  unfold resolve? firstRows
  rw [bind_assoc]
  refine bind_congr fun rows? => ?_
  cases rows? <;> rfl

theorem ensures_firstRows :
    (firstRows k fields).Ensures rely fun rows? =>
      ∀ rows, rows? = .ok rows → ∀ row ∈ rows, row.value.isFinite = true := by
  unfold firstRows
  rw [Dialogue.ensures_bind]
  apply (ensures_askRows k fields k.strategy).mono
  intro rows? hrows
  cases rows? with
  | ok rows => exact hrows
  | error e => exact ensures_askRows k fields k.strategy.other

theorem toOption_ofAnswer (source : String) (rows : List GroupRow) (threshold : Threshold) :
    (ofAnswer source fields rows threshold).toOption = ofRows? fields rows threshold := by
  unfold ofAnswer
  cases ofRows? fields rows threshold <;> rfl

theorem ofRows?_of_bind_eq_ok {k : Kpi} {fields : List String} {threshold : Threshold}
    {rows? : Except ResolveError (List GroupRow)} {b : Breakdown}
    (h : rows?.bind (ofAnswer k.source fields · threshold) = .ok b) :
    ∃ rows, rows? = .ok rows ∧ ofRows? fields rows threshold = some b := by
  cases rows? with
  | error e => cases h
  | ok rows =>
      have hb : ofAnswer k.source fields rows threshold = .ok b := h
      refine ⟨rows, rfl, ?_⟩
      rw [← toOption_ofAnswer fields k.source, hb]
      rfl

/-- A breakdown agrees with the threshold, whatever was answered. -/
theorem ensures_resolve? (threshold : Threshold) :
    (resolve? k fields threshold).Ensures rely fun b? => ∀ b, b? = .ok b → b.Agrees threshold := by
  rw [resolve?_eq, Dialogue.ensures_bind]
  apply (ensures_firstRows k fields).mono
  intro rows? hrows b hb
  obtain ⟨rows, hok, hbreakdown⟩ := ofRows?_of_bind_eq_ok hb
  exact agrees_of_ofRows? (hrows rows hok) hbreakdown

end Asking

end Alerting.Breakdown
