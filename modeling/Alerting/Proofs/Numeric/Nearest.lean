import Alerting.Proofs.Numeric.FloatValue
import Mathlib.Tactic.FieldSimp
import Mathlib.Tactic.Linarith
import Mathlib.Tactic.Ring
/-!
# The nearest whole number

The parts of a float are rounded in whole numbers.  What comes out is the whole number nearest to
its value, and of two equally near ones the one that is further from zero.
-/

namespace Alerting.Numeric

/-- Whether a whole number is the nearest one to a number, where a half goes away from zero. -/
structure IsNearest (q : ℚ) (n : Int) : Prop where
  near : |q - n| ≤ 1 / 2
  away : |q - n| = 1 / 2 → |q| < |(n : ℚ)|

namespace IsNearest

variable {q : ℚ} {m n : Int}

theorem neg (h : IsNearest q n) : IsNearest (-q) (-n) where
  near := by
    rw [Int.cast_neg, neg_sub_neg, abs_sub_comm]
    exact h.near
  away hhalf := by
    rw [Int.cast_neg, neg_sub_neg, abs_sub_comm] at hhalf
    rw [Int.cast_neg, abs_neg, abs_neg]
    exact h.away hhalf

theorem of_lt (h : |q - n| < 1 / 2) : IsNearest q n where
  near := h.le
  away hhalf := absurd hhalf h.ne

theorem le (hm : IsNearest q m) (hn : IsNearest q n) : n ≤ m := by
  by_contra hnot
  have hlt : m < n := not_le.mp hnot
  have hstep : (m : ℚ) + 1 ≤ n := by exact_mod_cast hlt
  have hlow := (abs_le.mp hm.near).2
  have hhigh := (abs_le.mp hn.near).1
  -- both are a half away, on either side
  have hmhalf : q - m = 1 / 2 := by linarith
  have hnhalf : q - n = -(1 / 2) := by linarith
  have hmaway := hm.away (by rw [hmhalf]; norm_num)
  have hnaway := hn.away (by rw [hnhalf]; norm_num)
  have hmneg : m < 0 := by
    by_contra hnonneg
    have hcast : (0 : ℚ) ≤ m := by exact_mod_cast not_lt.mp hnonneg
    rw [abs_of_nonneg hcast, abs_lt] at hmaway
    linarith
  have hnpos : 0 < n := by
    by_contra hnonpos
    have hcast : (n : ℚ) ≤ 0 := by exact_mod_cast not_lt.mp hnonpos
    rw [abs_of_nonpos hcast, abs_lt] at hnaway
    linarith
  have hone : (n : ℚ) - m = 1 := by linarith
  have hint : n - m = 1 := by exact_mod_cast hone
  omega

theorem unique (hm : IsNearest q m) (hn : IsNearest q n) : m = n :=
  le_antisymm (hn.le hm) (hm.le hn)

end IsNearest

/-! ## Rounding the parts of a float -/

namespace Binary

theorem roundMagnitude_eq (b : Binary) :
    b.roundMagnitude = ⌊(b.significand * 2 ^ b.exponent : ℚ) + 1 / 2⌋₊ := by
  have hpos : (0 : ℚ) < 2 ^ (-b.exponent).toNat := by positivity
  have hpow : (2 : ℚ) ^ b.exponent = 2 ^ b.exponent.toNat / 2 ^ (-b.exponent).toNat := by
    rw [← zpow_natCast, ← zpow_natCast, ← zpow_sub₀ (by norm_num)]
    congr 1
    omega
  have hquotient : (b.significand * 2 ^ b.exponent : ℚ) + 1 / 2 =
      (2 * b.significand * 2 ^ b.exponent.toNat + 2 ^ (-b.exponent).toNat : Nat) /
        (2 * 2 ^ (-b.exponent).toNat : Nat) := by
    rw [hpow]
    push_cast
    field_simp
  rw [hquotient, Nat.floor_div_eq_div]
  rfl

theorem isNearest_roundMagnitude (b : Binary) :
    IsNearest (b.significand * 2 ^ b.exponent) b.roundMagnitude := by
  have hnonneg : (0 : ℚ) ≤ b.significand * 2 ^ b.exponent := by positivity
  rw [roundMagnitude_eq]
  generalize (b.significand * 2 ^ b.exponent : ℚ) = q at hnonneg
  have hlow : (⌊q + 1 / 2⌋₊ : ℚ) ≤ q + 1 / 2 := Nat.floor_le (by linarith)
  have hhigh : q + 1 / 2 < ⌊q + 1 / 2⌋₊ + 1 := Nat.lt_floor_add_one _
  generalize ⌊q + 1 / 2⌋₊ = n at hlow hhigh
  refine ⟨?_, fun hhalf => ?_⟩
  · rw [Int.cast_natCast, abs_le]
    constructor <;> linarith
  · rw [Int.cast_natCast] at hhalf ⊢
    rw [abs_of_nonneg hnonneg, abs_of_nonneg (Nat.cast_nonneg n)]
    rcases (abs_eq (by norm_num)).mp hhalf with habove | hbelow
    · linarith
    · linarith

theorem isNearest_round (b : Binary) : IsNearest b.toRat b.round := by
  unfold toRat round
  split
  · rw [neg_one_mul]
    exact (isNearest_roundMagnitude b).neg
  · rw [one_mul]
    exact isNearest_roundMagnitude b

end Binary

end Alerting.Numeric
