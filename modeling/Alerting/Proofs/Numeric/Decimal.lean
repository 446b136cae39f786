import Alerting.Numeric.Decimal
import Alerting.Proofs.Numeric.Arithmetic
import Alerting.Proofs.Numeric.Nearest
/-!
# Floats of decimals

A decimal with up to fifteen digits becomes the float that its coefficient over a power of ten is.
Its fraction is divided on its own, and the sum is off by less than half a unit of the last place,
so bringing it back to the places that the decimal has gives the coefficient again.
-/

namespace Alerting.Numeric

open FloatOrder

/-! ## Numbers of moderate size -/

theorem isModerate_of_bounds {q : ℚ} (hlow : 1 / 10 ^ 40 ≤ q) (hhigh : q ≤ 10 ^ 40) :
    IsModerate q := by
  constructor
  · refine le_trans ?_ hlow
    norm_num
  · refine hhigh.trans_lt ?_
    norm_num

theorem rounded_bounds {q : ℚ} (hq : 0 < q) :
    9 / 10 * q ≤ rounded q ∧ rounded q ≤ 11 / 10 * q := by
  obtain ⟨hlow, hhigh⟩ := abs_le.mp (abs_rounded_sub_le hq)
  constructor <;> linarith

theorem rounded_natCast {n : Nat} (hn : 0 < n) (hlt : n < 2 ^ 53) : rounded n = n :=
  rounded_of_eq (k := 0) hn hlt (by rw [zpow_zero, mul_one])

theorem rounded_ten_pow {k : Nat} (hk : k ≤ 22) : rounded (10 ^ k) = 10 ^ k := by
  have hlt : 5 ^ k < 2 ^ 53 := (Nat.pow_le_pow_right (by norm_num) hk).trans_lt (by norm_num)
  have hvalue : (10 : ℚ) ^ k = (5 ^ k : Nat) * 2 ^ (k : Int) := by
    rw [zpow_natCast]
    push_cast
    rw [← mul_pow]
    norm_num
  exact rounded_of_eq (Nat.pow_pos (by norm_num)) hlt hvalue

theorem isNormal_ofNat {n : Nat} (hn : 0 < n) (hlt : n < 2 ^ 200) :
    IsNormal (Float.ofNat n) (rounded n) := by
  have hnormal := isNormal_ofScientific (k := 0) hn (by simpa using hlt)
  rw [pow_zero, mul_one] at hnormal
  exact hnormal

/-! ## Rounding to a whole number -/

/-- A float that is less than a half away from a whole number is rounded to it. -/
theorem IsNormal.exists_round_eq {x : Float} {q : ℚ} (hx : IsNormal x q) {n : Nat}
    (hnear : |q - n| < 1 / 2) : ∃ b, Binary.ofFloat? x = some b ∧ b.round = n := by
  obtain ⟨b, hparts, rfl⟩ := Option.map_eq_some_iff.mp hx.value?_eq
  exact ⟨b, hparts, b.isNearest_round.unique (.of_lt (by exact_mod_cast hnear))⟩

/-! ## The float of a decimal -/

namespace Decimal

theorem toFloat_eq_signed (negative : Bool) (digits places : Nat) :
    toFloat ⟨negative, digits, places⟩ = signed negative (toFloat ⟨false, digits, places⟩) := by
  cases negative <;> rfl

theorem toFloat_zero (places : Nat) : toFloat ⟨false, 0, places⟩ = Float.ofNat 0 := by
  simp [toFloat]

theorem toFloat_whole (n : Nat) : toFloat ⟨false, n, 0⟩ = Float.ofNat n := by
  simp [toFloat, Nat.mod_one]

/-- What is lost when the fraction is divided on its own, and the sum brought back, is less than
half a unit. -/
theorem near_of_steps {c aligned summed product : ℚ} (hlt : c < 10 ^ 15)
    (haligned : |aligned - c| ≤ c / 2 ^ 53) (hsummed : |summed - aligned| ≤ aligned / 2 ^ 53)
    (hproduct : |product - summed| ≤ summed / 2 ^ 53) : |product - c| < 1 / 2 := by
  rw [abs_le] at haligned hsummed hproduct
  rw [abs_lt]
  constructor <;> linarith

theorem abs_rounded_mul_sub_le {a scale : ℚ} (ha : 0 < a) (hscale : 0 < scale) :
    |rounded a * scale - a * scale| ≤ a * scale / 2 ^ 53 := by
  rw [← sub_mul, abs_mul, abs_of_pos hscale, mul_div_right_comm]
  exact mul_le_mul_of_nonneg_right (abs_rounded_sub_le ha) hscale.le

section Places

variable {p : Nat} (hp : p ≤ 28)

include hp

theorem scale_bounds : 1 / 2 ≤ rounded (10 ^ p) ∧ rounded (10 ^ p) ≤ 2 * 10 ^ 28 := by
  obtain ⟨hlow, hhigh⟩ := rounded_bounds (q := 10 ^ p) (by positivity)
  have hone : (1 : ℚ) ≤ 10 ^ p := one_le_pow₀ (by norm_num)
  have hle : (10 : ℚ) ^ p ≤ 10 ^ 28 := pow_le_pow_right₀ (by norm_num) hp
  constructor <;> linarith

theorem isNormal_scale : IsNormal (Float.ofNat (10 ^ p)) (rounded (10 ^ p)) := by
  have hlt : 10 ^ p < 2 ^ 200 := (Nat.pow_le_pow_right (by norm_num) hp).trans_lt (by norm_num)
  have hnormal := isNormal_ofNat (Nat.pow_pos (by norm_num)) hlt
  push_cast at hnormal
  exact hnormal

theorem isNormal_div_scale {n : Nat} (hn : 0 < n) (hlt : n < 10 ^ 15) :
    IsNormal (Float.ofNat n / Float.ofNat (10 ^ p)) (rounded (n / rounded (10 ^ p))) := by
  have hnormal := isNormal_ofNat hn (hlt.trans (by norm_num))
  rw [rounded_natCast hn (hlt.trans (by norm_num))] at hnormal
  obtain ⟨hlow, hhigh⟩ := scale_bounds hp
  have hscale : 0 < rounded (10 ^ p) := by linarith
  have hone : (1 : ℚ) ≤ n := by exact_mod_cast hn
  have hmost : (n : ℚ) < 10 ^ 15 := by exact_mod_cast hlt
  refine hnormal.div (isNormal_scale hp) (isModerate_of_bounds ?_ ?_)
  · rw [le_div_iff₀ hscale]
    linarith
  · rw [div_le_iff₀ hscale]
    linarith

variable {c : Nat} (hlt : c < 10 ^ 15)

include hlt

/-- The whole part and the fraction add up to the decimal, but for what is rounded off. -/
theorem exists_isNormal_sum (hrest : c % 10 ^ p ≠ 0) :
    ∃ sum aligned : ℚ,
      IsNormal (Float.ofNat (c / 10 ^ p) + Float.ofNat (c % 10 ^ p) / Float.ofNat (10 ^ p)) sum ∧
      |aligned - c| ≤ c / 2 ^ 53 ∧ |sum * rounded (10 ^ p) - aligned| ≤ aligned / 2 ^ 53 := by
  have hdecomposed : 10 ^ p * (c / 10 ^ p) + c % 10 ^ p = c := Nat.div_add_mod c (10 ^ p)
  have hle : c % 10 ^ p ≤ c := Nat.mod_le _ _
  have hfraction := isNormal_div_scale hp (Nat.pos_of_ne_zero hrest) (hle.trans_lt hlt)
  have hrestpos : (0 : ℚ) < (c % 10 ^ p : Nat) := by exact_mod_cast Nat.pos_of_ne_zero hrest
  obtain ⟨hlow, hhigh⟩ := scale_bounds hp
  have hscale : 0 < rounded (10 ^ p) := by linarith
  have hbrought := abs_rounded_mul_sub_le (div_pos hrestpos hscale) hscale
  rw [div_mul_cancel₀ _ hscale.ne'] at hbrought
  rcases Nat.eq_zero_or_pos (c / 10 ^ p) with hwhole | hwhole
  · -- without a whole part nothing is added
    rw [hwhole, Nat.mul_zero, Nat.zero_add] at hdecomposed
    rw [hdecomposed] at hbrought hfraction ⊢
    rw [hwhole]
    have hnonneg : 0 ≤ rounded (c / rounded (10 ^ p)) * rounded (10 ^ p) :=
      mul_nonneg hfraction.pos.le hscale.le
    refine ⟨_, rounded (c / rounded (10 ^ p)) * rounded (10 ^ p), hfraction.zero_add, hbrought, ?_⟩
    rw [sub_self, abs_zero]
    positivity
  · -- with a whole part the scale is exact
    have hplaces : p < 15 := (Nat.pow_lt_pow_iff_right (by norm_num)).mp
      ((Nat.div_pos_iff.mp hwhole).2.trans_lt hlt)
    have hexact : rounded (10 ^ p) = 10 ^ p := rounded_ten_pow (by omega)
    have hwholelt : c / 10 ^ p < 10 ^ 15 := (Nat.div_le_self _ _).trans_lt hlt
    have hnormal := isNormal_ofNat hwhole (hwholelt.trans (by norm_num))
    rw [rounded_natCast hwhole (hwholelt.trans (by norm_num))] at hnormal
    have hcast : (10 : ℚ) ^ p * (c / 10 ^ p : Nat) + (c % 10 ^ p : Nat) = c := by
      exact_mod_cast hdecomposed
    have hrestle : ((c % 10 ^ p : Nat) : ℚ) ≤ c := by exact_mod_cast hle
    have hwholepos : (1 : ℚ) ≤ (c / 10 ^ p : Nat) := by exact_mod_cast hwhole
    have hwholemost : ((c / 10 ^ p : Nat) : ℚ) < 10 ^ 15 := by exact_mod_cast hwholelt
    rw [hexact] at hbrought hfraction hscale ⊢
    generalize hfloat : rounded ((c % 10 ^ p : Nat) / 10 ^ p) = fraction at hbrought hfraction
    have hfractionpos : 0 < fraction := hfraction.pos
    have hfractionle : fraction ≤ 2 := by
      have hltscale : ((c % 10 ^ p : Nat) : ℚ) < 10 ^ p := by
        exact_mod_cast Nat.mod_lt c (Nat.pow_pos (by norm_num))
      have hone : ((c % 10 ^ p : Nat) : ℚ) / 10 ^ p < 1 := (div_lt_one hscale).mpr hltscale
      have hround := (rounded_bounds (div_pos hrestpos hscale)).2
      linarith
    have hmoderate : IsModerate ((c / 10 ^ p : Nat) + fraction) :=
      isModerate_of_bounds (by linarith) (by linarith)
    refine ⟨_, ((c / 10 ^ p : Nat) + fraction) * 10 ^ p, hnormal.add hfraction hmoderate, ?_, ?_⟩
    · have haligned : ((c / 10 ^ p : Nat) + fraction) * 10 ^ p - c =
          fraction * 10 ^ p - (c % 10 ^ p : Nat) := by
        linarith
      rw [haligned]
      exact hbrought.trans (by gcongr)
    · exact abs_rounded_mul_sub_le (by linarith) hscale

/-- A decimal becomes the float of its coefficient over the one of its power of ten. -/
theorem isNormal_toFloat (hc : 0 < c) :
    IsNormal (toFloat ⟨false, c, p⟩) (rounded (c / rounded (10 ^ p))) := by
  have hpow : Nat.pow 10 p = 10 ^ p := rfl
  have hmost : (c : ℚ) < 10 ^ 15 := by exact_mod_cast hlt
  have hone : (1 : ℚ) ≤ c := by exact_mod_cast hc
  unfold toFloat
  dsimp only
  rw [hpow, if_neg Bool.false_ne_true]
  by_cases hrest : c % 10 ^ p = 0
  · -- a whole number that is a float, like the power of ten
    obtain ⟨whole, rfl⟩ := Nat.dvd_of_mod_eq_zero hrest
    have hwhole : 0 < whole := Nat.pos_of_mul_pos_left hc
    have hpos : 0 < 10 ^ p := Nat.pow_pos (by norm_num)
    have hplaces : p < 15 := (Nat.pow_lt_pow_iff_right (by norm_num)).mp
      ((Nat.le_mul_of_pos_right _ hwhole).trans_lt hlt)
    have hwholelt : whole < 10 ^ 15 := (Nat.le_mul_of_pos_left _ hpos).trans_lt hlt
    rw [if_pos hrest, rounded_ten_pow (by omega), Nat.mul_div_cancel_left _ hpos]
    push_cast
    rw [mul_div_cancel_left₀ _ (by positivity)]
    exact isNormal_ofNat hwhole (hwholelt.trans (by norm_num))
  · obtain ⟨sum, aligned, hsum, haligned, hbrought⟩ := exists_isNormal_sum hp hlt hrest
    have hmoderate : IsModerate (sum * rounded (10 ^ p)) := by
      rw [abs_le] at haligned hbrought
      exact isModerate_of_bounds (by linarith) (by linarith)
    have hproduct := hsum.mul (isNormal_scale hp) hmoderate
    obtain ⟨hlow, hhigh⟩ := scale_bounds hp
    have hpos : 0 < sum * rounded (10 ^ p) := mul_pos hsum.pos (by linarith)
    have hnear := near_of_steps hmost haligned hbrought (abs_rounded_sub_le hpos)
    obtain ⟨b, hparts, hround⟩ := hproduct.exists_round_eq hnear
    rw [if_neg hrest, hparts]
    dsimp only
    rw [hround]
    exact isNormal_div_scale hp hc hlt

end Places

end Decimal

/-! ## A coefficient and a power of ten -/

/-- The float nearest to a coefficient over a power of ten, or times one.  A power that the
coefficient is divided by is rounded before. -/
def scaledValue (c : Nat) (k : Int) : ℚ :=
  if 0 ≤ k then rounded (c * 10 ^ k.toNat) else rounded (c / rounded (10 ^ (-k).toNat))

theorem scaledValue_of_nonpos (c : Nat) {k : Int} (hk : k ≤ 0) :
    scaledValue c k = rounded (c / rounded (10 ^ (-k).toNat)) := by
  unfold scaledValue
  split
  · next hnonneg =>
    obtain rfl : k = 0 := by omega
    rw [Int.neg_zero, Int.toNat_zero, rounded_ten_pow (by norm_num), pow_zero, mul_one, div_one]
  · rfl

theorem scaledValue_zero (k : Int) : scaledValue 0 k = 0 := by
  unfold scaledValue
  rw [Nat.cast_zero, zero_mul, zero_div, rounded_zero, ite_self]

/-- Where the power of ten is a float there is only one rounding. -/
theorem scaledValue_eq_rounded (c : Nat) {k : Int} (hk : -22 ≤ k) :
    scaledValue c k = rounded (c * 10 ^ k) := by
  unfold scaledValue
  split
  · next hnonneg => rw [← zpow_natCast, Int.toNat_of_nonneg hnonneg]
  · next hneg =>
    rw [rounded_ten_pow (by omega), div_eq_mul_inv, ← zpow_natCast,
      Int.toNat_of_nonneg (by omega), zpow_neg, inv_inv]

/-- Whole numbers that are small enough stay apart in whatever unit they are rounded. -/
theorem rounded_mul_inj {m n : Nat} (hsmall : m + n < 2 ^ 53) {unit : ℚ} (hunit : 0 < unit) :
    rounded (m * unit) = rounded (n * unit) ↔ m = n := by
  have hnear (k : Nat) : |rounded (k * unit) - k * unit| ≤ k * unit / 2 ^ 53 := by
    rcases Nat.eq_zero_or_pos k with rfl | hk
    · simp [rounded_zero]
    · exact abs_rounded_sub_le (by positivity)
  refine ⟨fun heq => ?_, fun heq => by rw [heq]⟩
  have hm := abs_le.mp (hnear m)
  have hn := abs_le.mp (hnear n)
  have hlt : ((m : ℚ) + n) * unit / 2 ^ 53 < unit := by
    rw [div_lt_iff₀ (by norm_num), mul_comm unit]
    exact mul_lt_mul_of_pos_right (by exact_mod_cast hsmall) hunit
  have hclose : |(m : ℚ) - n| * unit < 1 * unit := by
    rw [← abs_of_pos hunit, ← abs_mul, abs_of_pos hunit, abs_lt]
    constructor <;> linarith
  have hone : |(m : Int) - n| < 1 := by
    exact_mod_cast lt_of_mul_lt_mul_right hclose hunit.le
  have hsub := Int.abs_lt_one_iff.mp hone
  omega

structure IsScaled (x : Float) (c : Nat) (k : Int) : Prop where
  zero : c = 0 → x = Float.ofNat 0
  normal : 0 < c → IsNormal x (scaledValue c k)

theorem mul_ten_pow_lt {c : Nat} (hlt : c < 10 ^ 15) {k : Int} (hk : k ≤ 22) :
    c * 10 ^ k.toNat < 2 ^ 200 := by
  have hpow : 10 ^ k.toNat ≤ 10 ^ 22 := Nat.pow_le_pow_right (by norm_num) (by omega)
  calc c * 10 ^ k.toNat ≤ 10 ^ 15 * 10 ^ 22 := Nat.mul_le_mul hlt.le hpow
    _ < 2 ^ 200 := by norm_num

theorem isScaled_ofNat {c : Nat} {k : Int} (hk : 0 ≤ k) (hlt : c * 10 ^ k.toNat < 2 ^ 200) :
    IsScaled (Float.ofNat (c * 10 ^ k.toNat)) c k where
  zero := by
    rintro rfl
    rw [Nat.zero_mul]
  normal hc := by
    have hnormal := isNormal_ofNat (Nat.mul_pos hc (Nat.pow_pos (by norm_num))) hlt
    push_cast at hnormal
    rwa [scaledValue, if_pos hk]

theorem Decimal.isScaled_toFloat {c p : Nat} (hp : p ≤ 28) (hlt : c < 10 ^ 15) :
    IsScaled (toFloat ⟨false, c, p⟩) c (-p) where
  zero := by
    rintro rfl
    exact toFloat_zero p
  normal hc := by
    rw [scaledValue_of_nonpos c (by omega), Int.neg_neg, Int.toNat_natCast]
    exact isNormal_toFloat hp hlt hc

def signedScaled (negative : Bool) (c : Nat) (k : Int) : ℚ :=
  if negative then -scaledValue c k else scaledValue c k

theorem signedScaled_zero (negative : Bool) (k : Int) : signedScaled negative 0 k = 0 := by
  rw [signedScaled, scaledValue_zero, neg_zero, ite_self]

theorem signedScaled_and (negative : Bool) (c : Nat) (k : Int) :
    signedScaled (negative && c ≠ 0) c k = signedScaled negative c k := by
  rcases Nat.eq_zero_or_pos c with rfl | hc
  · rw [signedScaled_zero, signedScaled_zero]
  · rw [decide_eq_true hc.ne', Bool.and_true]

theorem signedScaled_inj (negative : Bool) {c c' : Nat} {k k' : Int} :
    signedScaled negative c k = signedScaled negative c' k' ↔
      scaledValue c k = scaledValue c' k' := by
  cases negative with
  | true => exact neg_inj
  | false => rfl

theorem IsScaled.value?_signed {x : Float} {c : Nat} {k : Int} (hx : IsScaled x c k)
    (negative : Bool) : value? (signed negative x) = some (signedScaled negative c k) := by
  rcases Nat.eq_zero_or_pos c with rfl | hc
  · have hfinite : (signed negative (Float.ofNat 0)).isFinite = true := by
      cases negative <;> rfl
    have hmagnitude : signedMagnitude (signed negative (Float.ofNat 0)) = 0 := by
      cases negative <;> decide
    rw [hx.zero rfl, signedScaled_zero, value?_of_isFinite hfinite, hmagnitude]
    exact congrArg some ((signedValue_natCast 0).trans magnitudeValue_zero)
  · exact (hx.normal hc).value?_signed negative

end Alerting.Numeric
