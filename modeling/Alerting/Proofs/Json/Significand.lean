import Alerting.Proofs.Json.Spelling
import Alerting.Proofs.Numeric.Decimal
/-!
# The values of literals

A literal whose digits all fit the significand stands for its coefficient and its power of ten,
`exists_toFloat_of_value?`, and for the whole number itself where it has no fraction and no
exponent, `toFloat_of_value?_whole`.
-/

namespace Alerting.Json.Numeral

open Numeric

section Absorb

variable {lit : Numeral} (h : lit.coefficient ≤ maxSignificand)

include h

theorem absorb_whole : absorb 0 lit.whole = (ofDigits lit.whole, 0) := by
  rw [coefficient, ofDigits_append] at h
  exact absorb_of_le lit.whole 0 ((le_foldl_digits _ _).trans h)

theorem absorb_fraction :
    absorb (ofDigits lit.whole) (lit.fraction.getD []) = (lit.coefficient, 0) := by
  rw [coefficient, ofDigits_append] at h ⊢
  exact absorb_of_le _ _ h

theorem toFloat_of_value?_whole {n : Number} (hfraction : lit.fraction = none)
    (hexponent : lit.exponent = none) (hn : lit.value? = some n) :
    n.toFloat = signed lit.negative (Float.ofNat lit.coefficient) := by
  have hcoefficient : lit.coefficient = ofDigits lit.whole := by
    rw [coefficient, hfraction, Option.getD_none, List.append_nil]
  unfold value? at hn
  rw [absorb_whole h, hfraction, hexponent] at hn
  rw [hcoefficient]
  generalize ofDigits lit.whole = whole at hn ⊢
  change (if !lit.negative then some (Number.int whole)
    else if whole = 0 || Nat.pow 2 63 < whole then _ else _) = _ at hn
  cases hnegative : lit.negative with
  | false =>
      rw [hnegative] at hn
      cases hn
      rfl
  | true =>
      rw [hnegative, if_neg (by simp)] at hn
      split at hn
      · cases hn
        rfl
      · next hsmall =>
        cases hn
        obtain ⟨pred, rfl⟩ : ∃ pred, whole = pred + 1 := by
          refine Nat.exists_eq_succ_of_ne_zero ?_
          rintro rfl
          exact hsmall rfl
        rfl

/-- With a fraction or an exponent the coefficient is scaled. -/
theorem value?_eq_scale (hparts : (lit.fraction.isNone && lit.exponent.isNone) = false) :
    lit.value? = (scale lit.coefficient lit.power).map fun x => .float (signed lit.negative x) := by
  have hpower : ((0 : Nat) : Int) - ((lit.fraction.getD []).length - (0 : Nat)) +
      lit.exponent.getD 0 = lit.power := by
    unfold power places
    omega
  unfold value?
  rw [absorb_whole h]
  dsimp only
  rw [absorb_fraction h, hparts]
  dsimp only
  rw [hpower]
  rfl

end Absorb

theorem powerOfTen_eq {p : Nat} (hp : p ≤ 28) : powerOfTen p = Float.ofNat (10 ^ p) := by
  have hlt : 1 * 10 ^ p < 2 ^ 200 := by
    rw [Nat.one_mul]
    exact (Nat.pow_le_pow_right (by norm_num) hp).trans_lt (by norm_num)
  have hnormal := isNormal_ofScientific Nat.one_pos hlt
  rw [Nat.cast_one, one_mul] at hnormal
  exact hnormal.eq (Decimal.isNormal_scale hp)

section Scaled

variable {c : Nat} {k : Int} (hlt : c < 10 ^ 15) (hlow : -28 ≤ k) (hhigh : k ≤ 22)

include hlt hlow hhigh

theorem exists_scale : ∃ x, scale c k = some x ∧ IsScaled x c k := by
  rcases Nat.eq_zero_or_pos c with rfl | hc
  · exact ⟨Float.ofNat 0, rfl, fun _ => rfl, fun hpos => absurd hpos (lt_irrefl 0)⟩
  unfold scale
  dsimp only
  rw [if_neg hc.ne', if_neg (by omega)]
  by_cases hk : 0 ≤ k
  · have hnormal := isNormal_ofNat hc (hlt.trans (by norm_num))
    rw [rounded_natCast hc (hlt.trans (by norm_num))] at hnormal
    have hscale := Decimal.isNormal_scale (p := k.toNat) (by omega)
    rw [rounded_ten_pow (by omega)] at hscale
    have hmoderate : IsModerate ((c : ℚ) * 10 ^ k.toNat) := by
      have hcast := isModerate_natCast (Nat.mul_pos hc (Nat.pow_pos (by norm_num)))
        (mul_ten_pow_lt hlt hhigh)
      exact_mod_cast hcast
    have hproduct := hnormal.mul hscale hmoderate
    rw [if_pos hk, powerOfTen_eq (by omega), if_pos hproduct.isFinite]
    refine ⟨_, rfl, fun hzero => absurd hzero hc.ne', fun _ => ?_⟩
    rwa [scaledValue, if_pos hk]
  · rw [if_neg hk, if_pos (by omega), powerOfTen_eq (by omega)]
    refine ⟨_, rfl, fun hzero => absurd hzero hc.ne', fun _ => ?_⟩
    rw [scaledValue, if_neg hk]
    exact Decimal.isNormal_div_scale (by omega) hc hlt

end Scaled

/-- A literal of few digits stands for its coefficient and its power of ten. -/
theorem exists_toFloat_of_value? {lit : Numeral} {n : Number} (hn : lit.value? = some n)
    (hlt : lit.coefficient < 10 ^ 15) (hlow : -28 ≤ lit.power) (hhigh : lit.power ≤ 22) :
    ∃ x, n.toFloat = signed lit.negative x ∧ IsScaled x lit.coefficient lit.power := by
  have hfits : lit.coefficient ≤ maxSignificand := hlt.le.trans (by decide)
  cases hparts : lit.fraction.isNone && lit.exponent.isNone with
  | true =>
      rw [Bool.and_eq_true, Option.isNone_iff_eq_none, Option.isNone_iff_eq_none] at hparts
      obtain ⟨hfraction, hexponent⟩ := hparts
      have hpower : lit.power = 0 := by
        rw [power, places, hfraction, hexponent]
        rfl
      refine ⟨_, toFloat_of_value?_whole hfits hfraction hexponent hn, ?_⟩
      have hscaled := isScaled_ofNat hpower.ge (mul_ten_pow_lt hlt hhigh)
      rwa [hpower, Int.toNat_zero, Nat.pow_zero, Nat.mul_one, ← hpower] at hscaled
  | false =>
      obtain ⟨x, hscale, hscaled⟩ := exists_scale hlt hlow hhigh
      rw [value?_eq_scale hfits hparts, hscale] at hn
      cases hn
      exact ⟨x, rfl, hscaled⟩

end Alerting.Json.Numeral
