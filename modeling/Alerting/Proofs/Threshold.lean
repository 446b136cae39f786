import Alerting.Proofs.Numeric.FloatValue
import Alerting.Threshold
/-!
# When a threshold is met

A bound is read from JSON in one place and compared in another.  Together they say what the sign of
the comparison says in a textbook, about the numbers that the finite floats are; whatever cannot be
read, or is not finite, meets nothing.
-/

namespace Alerting

open Numeric Numeric.FloatOrder

/-- A JSON value that is read as a number: a number itself, or a text that holds one. -/
inductive Json.IsNumber : Json → ℚ → Prop
  | number {n : Json.Number} {q : ℚ} (h : value? n.toFloat = some q) : IsNumber (.number n) q
  | text {s : String} {x : Float} {q : ℚ} (hread : Numeric.ofText? s = some x)
      (h : value? x = some q) : IsNumber (.string s) q

namespace Comparison

/-- A JSON value from which a comparison reads these numbers. -/
def ReadsBound (comparison : Comparison) (value : Json) (numbers : List ℚ) : Prop :=
  match comparison with
  | .between => ∃ a b p q, value = .array [a, b] ∧ a.IsNumber p ∧ b.IsNumber q ∧ numbers = [p, q]
  | _ => ∃ q, value.IsNumber q ∧ numbers = [q]

def Relates (comparison : Comparison) (x : ℚ) (numbers : List ℚ) : Prop :=
  match comparison, numbers with
  | .lessThan, [t] => x < t
  | .lessEqual, [t] => x ≤ t
  | .greaterThan, [t] => x > t
  | .greaterEqual, [t] => x ≥ t
  | .equal, [t] => x = t
  | .between, [a, b] => (a ≤ x ∧ x ≤ b) ∨ (b ≤ x ∧ x ≤ a)
  | _, _ => False

end Comparison

theorem Json.isNumber_iff {value : Json} {q : ℚ} :
    value.IsNumber q ↔ ∃ x, value.toFloat? = some x ∧ value? x = some q := by
  constructor
  · rintro (h | ⟨hread, h⟩)
    · exact ⟨_, if_pos (isFinite_of_value? h), h⟩
    · exact ⟨_, Option.filter_eq_some_iff.mpr ⟨hread, isFinite_of_value? h⟩, h⟩
  · rintro ⟨x, hread, h⟩
    cases value with
    | number n =>
        obtain ⟨-, heq⟩ := Option.ite_none_right_eq_some.mp hread
        cases heq
        exact .number h
    | string s => exact .text (Option.filter_eq_some_iff.mp hread).1 h
    | _ => cases hread

theorem Json.IsNumber.unique {value : Json} {p q : ℚ} (hp : value.IsNumber p)
    (hq : value.IsNumber q) : p = q := by
  obtain ⟨x, hx, hp⟩ := isNumber_iff.mp hp
  obtain ⟨y, hy, hq⟩ := isNumber_iff.mp hq
  obtain rfl : x = y := Option.some.inj (hx.symm.trans hy)
  exact Option.some.inj (hp.symm.trans hq)

theorem exists_value?_of_toFloat? {value : Json} {x : Float} (h : value.toFloat? = some x) :
    ∃ q, value? x = some q :=
  Option.isSome_iff_exists.mp (isSome_value?_iff.mpr (Json.isFinite_of_toFloat? h))

/-! ## Comparing with a bound -/

section Holds

variable {k a b : Float} {x p q : ℚ}

theorem Comparison.holds_single_iff (hk : value? k = some x) (ha : value? a = some p)
    (comparison : Comparison) :
    comparison.holds k (.single a) = true ↔ comparison ≠ .between ∧ comparison.Relates x [p] := by
  have hfinite : Figure.isFinite k = true := isFinite_of_value? hk
  unfold holds Relates
  rw [hfinite, Bool.true_and]
  cases comparison with
  | lessThan => simpa using lt_iff_of_value? hk ha
  | lessEqual => simpa using le_iff_of_value? hk ha
  | greaterThan => simpa using lt_iff_of_value? ha hk
  | greaterEqual => simpa using le_iff_of_value? ha hk
  | equal => simpa using beq_iff_of_value? hk ha
  | between => simp

theorem value?_lesser (ha : value? a = some p) (hb : value? b = some q) :
    value? (Figure.lesser a b) = some (min p q) := by
  have hnan : Figure.isNaN a = false := isNaN_of_value? ha
  unfold Figure.lesser
  rw [hnan, if_neg Bool.false_ne_true]
  split
  · next h => rw [hb, min_eq_right ((lt_iff_of_value? hb ha).mp h).le]
  · next h => rw [ha, min_eq_left (not_lt.mp ((lt_iff_of_value? hb ha).not.mp h))]

theorem value?_greater (ha : value? a = some p) (hb : value? b = some q) :
    value? (Figure.greater a b) = some (max p q) := by
  have hnan : Figure.isNaN a = false := isNaN_of_value? ha
  unfold Figure.greater
  rw [hnan, if_neg Bool.false_ne_true]
  split
  · next h => rw [hb, max_eq_right ((lt_iff_of_value? ha hb).mp h).le]
  · next h => rw [ha, max_eq_left (not_lt.mp ((lt_iff_of_value? ha hb).not.mp h))]

theorem Comparison.holds_pair_iff (hk : value? k = some x) (ha : value? a = some p)
    (hb : value? b = some q) (comparison : Comparison) :
    comparison.holds k (.pair (Figure.lesser a b) (Figure.greater a b)) = true ↔
      comparison = .between ∧ comparison.Relates x [p, q] := by
  have hfinite : Figure.isFinite k = true := isFinite_of_value? hk
  unfold holds Relates
  rw [hfinite, Bool.true_and]
  cases comparison with
  | between =>
      have hlow := le_iff_of_value? (value?_lesser ha hb) hk
      have hhigh := le_iff_of_value? hk (value?_greater ha hb)
      have hrange : (min p q ≤ x ∧ x ≤ max p q) ↔ (p ≤ x ∧ x ≤ q) ∨ (q ≤ x ∧ x ≤ p) := by
        rcases le_total p q with h | h
        · rw [min_eq_left h, max_eq_right h]
          exact ⟨.inl, fun hx => hx.elim id fun hx => ⟨h.trans hx.1, hx.2.trans h⟩⟩
        · rw [min_eq_right h, max_eq_left h]
          exact ⟨.inr, fun hx => hx.elim (fun hx => ⟨h.trans hx.1, hx.2.trans h⟩) id⟩
      simpa [hlow, hhigh] using hrange
  | _ => simp

end Holds

/-! ## Reading a bound -/

theorem Bound.ofJson?_of_ne_between {comparison : Comparison} (h : comparison ≠ .between)
    (value : Json) : Bound.ofJson? comparison value = value.toFloat?.map .single := by
  cases comparison with
  | between => exact absurd rfl h
  | _ => rfl

theorem Bound.ofJson?_between_eq_some_iff {value : Json} {bound : Bound} :
    Bound.ofJson? .between value = some bound ↔
      ∃ a b x y, value = .array [a, b] ∧ a.toFloat? = some x ∧ b.toFloat? = some y ∧
        bound = .pair (Figure.lesser x y) (Figure.greater x y) := by
  constructor
  · intro h
    unfold ofJson? at h
    dsimp only at h
    split at h
    · next a b =>
      obtain ⟨x, hx, h⟩ := Option.bind_eq_some_iff.mp h
      obtain ⟨y, hy, h⟩ := Option.bind_eq_some_iff.mp h
      exact ⟨a, b, x, y, rfl, hx, hy, (Option.some.inj h).symm⟩
    · cases h
  · rintro ⟨a, b, x, y, rfl, hx, hy, rfl⟩
    unfold ofJson?
    dsimp only
    rw [hx, hy]
    rfl

/-- A bound that was read for one shape of comparison is not compared by the other. -/
theorem Comparison.holds_of_other_shape {comparison other : Comparison} {value : Json}
    {bound : Bound} (hbound : Bound.ofJson? comparison value = some bound)
    (hother : comparison = .between ↔ other ≠ .between) (k : Float) :
    other.holds k bound = false := by
  by_cases h : comparison = .between
  · rw [h, Bound.ofJson?_between_eq_some_iff] at hbound
    obtain ⟨a, b, x, y, -, -, -, rfl⟩ := hbound
    have hne := hother.mp h
    unfold holds
    cases other with
    | between => exact absurd rfl hne
    | _ => exact Bool.and_false _
  · rw [Bound.ofJson?_of_ne_between h] at hbound
    obtain ⟨x, -, rfl⟩ := Option.map_eq_some_iff.mp hbound
    obtain rfl : other = .between := not_not.mp (mt hother.mpr h)
    exact Bool.and_false _

theorem Comparison.readsBound_iff_of_ne_between {comparison : Comparison}
    (h : comparison ≠ .between) {value : Json} {numbers : List ℚ} :
    comparison.ReadsBound value numbers ↔ ∃ q, value.IsNumber q ∧ numbers = [q] := by
  cases comparison with
  | between => exact absurd rfl h
  | _ => exact Iff.rfl

theorem Comparison.exists_value?_of_holds {comparison : Comparison} {k : Float} {bound : Bound}
    (h : comparison.holds k bound = true) : ∃ x, value? k = some x :=
  Option.isSome_iff_exists.mp (isSome_value?_iff.mpr (Bool.and_eq_true_iff.mp h).1)

/-! ## Thresholds -/

namespace Threshold

theorem isMetBy_ofJson_iff {comparison : Comparison} {value : Json} {k : Float} :
    (ofJson comparison (some value)).isMetBy k = true ↔
      ∃ x numbers, value? k = some x ∧ comparison.ReadsBound value numbers ∧
        comparison.Relates x numbers := by
  have hmet : (ofJson comparison (some value)).isMetBy k = true ↔
      ∃ bound, Bound.ofJson? comparison value = some bound ∧ comparison.holds k bound = true :=
    Option.any_eq_true _ _
  rw [hmet]
  by_cases hshape : comparison = .between
  · subst hshape
    constructor
    · rintro ⟨bound, hbound, hholds⟩
      obtain ⟨x, hx⟩ := Comparison.exists_value?_of_holds hholds
      obtain ⟨a, b, y, z, rfl, hy, hz, rfl⟩ := Bound.ofJson?_between_eq_some_iff.mp hbound
      obtain ⟨p, hp⟩ := exists_value?_of_toFloat? hy
      obtain ⟨q, hq⟩ := exists_value?_of_toFloat? hz
      exact ⟨x, [p, q], hx, ⟨a, b, p, q, rfl, Json.isNumber_iff.mpr ⟨y, hy, hp⟩,
        Json.isNumber_iff.mpr ⟨z, hz, hq⟩, rfl⟩,
        ((Comparison.holds_pair_iff hx hp hq _).mp hholds).2⟩
    · rintro ⟨x, numbers, hx, ⟨a, b, p, q, rfl, ha, hb, rfl⟩, hrelates⟩
      obtain ⟨y, hy, hp⟩ := Json.isNumber_iff.mp ha
      obtain ⟨z, hz, hq⟩ := Json.isNumber_iff.mp hb
      exact ⟨_, Bound.ofJson?_between_eq_some_iff.mpr ⟨a, b, y, z, rfl, hy, hz, rfl⟩,
        (Comparison.holds_pair_iff hx hp hq _).mpr ⟨rfl, hrelates⟩⟩
  · simp only [Bound.ofJson?_of_ne_between hshape,
      Comparison.readsBound_iff_of_ne_between hshape]
    constructor
    · rintro ⟨bound, hbound, hholds⟩
      obtain ⟨x, hx⟩ := Comparison.exists_value?_of_holds hholds
      obtain ⟨y, hy, rfl⟩ := Option.map_eq_some_iff.mp hbound
      obtain ⟨q, hq⟩ := exists_value?_of_toFloat? hy
      exact ⟨x, [q], hx, ⟨q, Json.isNumber_iff.mpr ⟨y, hy, hq⟩, rfl⟩,
        ((Comparison.holds_single_iff hx hq _).mp hholds).2⟩
    · rintro ⟨x, numbers, hx, ⟨q, hvalue, rfl⟩, hrelates⟩
      obtain ⟨y, hy, hq⟩ := Json.isNumber_iff.mp hvalue
      exact ⟨.single y, Option.map_eq_some_iff.mpr ⟨y, hy, rfl⟩,
        (Comparison.holds_single_iff hx hq _).mpr ⟨hshape, hrelates⟩⟩

/-- With a single number that can be read, a threshold is met by the numbers that are so related to
it. -/
theorem isMetBy_single_iff (comparison : Comparison) (h : comparison ≠ .between) {value : Json}
    {k : Float} {x q : ℚ} (hk : value? k = some x) (hvalue : value.IsNumber q) :
    (ofJson comparison (some value)).isMetBy k = true ↔ comparison.Relates x [q] := by
  rw [isMetBy_ofJson_iff]
  simp only [Comparison.readsBound_iff_of_ne_between h]
  constructor
  · rintro ⟨y, numbers, hy, ⟨p, hp, rfl⟩, hrelates⟩
    obtain rfl : x = y := Option.some.inj (hk.symm.trans hy)
    rwa [hp.unique hvalue] at hrelates
  · exact fun hrelates => ⟨x, [q], hk, ⟨q, hvalue, rfl⟩, hrelates⟩

theorem isMetBy_between_comm (a b : Json) (k : Float) :
    (ofJson .between (some (.array [a, b]))).isMetBy k = true →
      (ofJson .between (some (.array [b, a]))).isMetBy k = true := by
  rw [isMetBy_ofJson_iff, isMetBy_ofJson_iff]
  rintro ⟨x, numbers, hx, ⟨a, b, p, q, ⟨⟩, ha, hb, rfl⟩, hrelates⟩
  exact ⟨x, [q, p], hx, ⟨b, a, q, p, rfl, hb, ha, rfl⟩, hrelates.symm⟩

theorem existsUnique_of_trichotomy {meets : Comparison → Bool} {x q : ℚ}
    (hlt : meets .lessThan = true ↔ x < q) (heq : meets .equal = true ↔ x = q)
    (hgt : meets .greaterThan = true ↔ x > q) :
    ∃! comparison, comparison ∈ [.lessThan, .equal, .greaterThan] ∧ meets comparison = true := by
  have hmem : ∀ {comparison : Comparison}, comparison ∈ [.lessThan, .equal, .greaterThan] →
      comparison = .lessThan ∨ comparison = .equal ∨ comparison = .greaterThan := by
    intro comparison h
    simpa using h
  rcases lt_trichotomy x q with h | h | h
  · refine ⟨.lessThan, ⟨by decide, hlt.mpr h⟩, ?_⟩
    rintro other ⟨hother, hmeets⟩
    rcases hmem hother with rfl | rfl | rfl
    · rfl
    · exact absurd (heq.mp hmeets) h.ne
    · exact absurd (hgt.mp hmeets) h.not_gt
  · refine ⟨.equal, ⟨by decide, heq.mpr h⟩, ?_⟩
    rintro other ⟨hother, hmeets⟩
    rcases hmem hother with rfl | rfl | rfl
    · exact absurd h (hlt.mp hmeets).ne
    · rfl
    · exact absurd h (hgt.mp hmeets).ne'
  · refine ⟨.greaterThan, ⟨by decide, hgt.mpr h⟩, ?_⟩
    rintro other ⟨hother, hmeets⟩
    rcases hmem hother with rfl | rfl | rfl
    · exact absurd (hlt.mp hmeets) h.not_gt
    · exact absurd (heq.mp hmeets) h.ne'
    · rfl

/-- A threshold says what its sign says in a textbook.  It is met by a finite number if its bound
can be read and the number is so related to the bound; `between` takes its two numbers in either
order.  Of less, equal and greater a number that is finite meets exactly one, and a bound is never
compared by the other shape of comparison. -/
theorem isMetBy_as_related (k : Float) :
    (∀ comparison value, (ofJson comparison value).isMetBy k = true ↔
      k.isFinite = true ∧ ∃ x v numbers, value? k = some x ∧ value = some v ∧
        comparison.ReadsBound v numbers ∧ comparison.Relates x numbers) ∧
    (∀ a b, (ofJson .between (some (.array [a, b]))).isMetBy k =
      (ofJson .between (some (.array [b, a]))).isMetBy k) ∧
    (∀ value q, k.isFinite = true → value.IsNumber q →
      let meets (comparison : Comparison) := (ofJson comparison (some value)).isMetBy k
      (∃! comparison, comparison ∈ [.lessThan, .equal, .greaterThan] ∧ meets comparison = true) ∧
        meets .lessEqual = (meets .lessThan || meets .equal) ∧
        meets .greaterEqual = (meets .greaterThan || meets .equal)) ∧
    ∀ (comparison other : Comparison) value bound, Bound.ofJson? comparison value = some bound →
      (comparison = .between ↔ other ≠ .between) → other.holds k bound = false := by
  refine ⟨fun comparison value => ?_, fun a b => ?_, fun value q hfinite hvalue => ?_,
    fun comparison other value bound hbound hother =>
      Comparison.holds_of_other_shape hbound hother k⟩
  · cases value with
    | none => exact ⟨nofun, nofun⟩
    | some v =>
        rw [isMetBy_ofJson_iff]
        constructor
        · rintro ⟨x, numbers, hx, hread, hrelates⟩
          exact ⟨isFinite_of_value? hx, x, v, numbers, hx, rfl, hread, hrelates⟩
        · rintro ⟨-, x, v, numbers, hx, ⟨⟩, hread, hrelates⟩
          exact ⟨x, numbers, hx, hread, hrelates⟩
  · rw [Bool.eq_iff_iff]
    exact ⟨isMetBy_between_comm a b k, isMetBy_between_comm b a k⟩
  · obtain ⟨x, hx⟩ := Option.isSome_iff_exists.mp (isSome_value?_iff.mpr hfinite)
    have hlt : (ofJson .lessThan (some value)).isMetBy k = true ↔ x < q :=
      isMetBy_single_iff .lessThan nofun hx hvalue
    have hle : (ofJson .lessEqual (some value)).isMetBy k = true ↔ x ≤ q :=
      isMetBy_single_iff .lessEqual nofun hx hvalue
    have hgt : (ofJson .greaterThan (some value)).isMetBy k = true ↔ x > q :=
      isMetBy_single_iff .greaterThan nofun hx hvalue
    have hge : (ofJson .greaterEqual (some value)).isMetBy k = true ↔ x ≥ q :=
      isMetBy_single_iff .greaterEqual nofun hx hvalue
    have heq : (ofJson .equal (some value)).isMetBy k = true ↔ x = q :=
      isMetBy_single_iff .equal nofun hx hvalue
    dsimp only
    refine ⟨existsUnique_of_trichotomy hlt heq hgt, ?_, ?_⟩
    · rw [Bool.eq_iff_iff, Bool.or_eq_true, hle, hlt, heq]
      exact le_iff_lt_or_eq
    · rw [Bool.eq_iff_iff, Bool.or_eq_true, hge, hgt, heq]
      exact le_iff_lt_or_eq.trans (or_congr_right eq_comm)

end Threshold

end Alerting
