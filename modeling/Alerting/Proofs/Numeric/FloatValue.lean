import Alerting.Proofs.Numeric.FloatOrder
/-!
# The values of floats

A finite float is a rational number, its significand times a power of two.  This value goes up with
the signed magnitude, so to compare finite floats is to compare their values:

* `isSome_value?_iff`: it is the finite floats that have a value;
* `lt_iff_of_value?`, `le_iff_of_value?`, `beq_iff_of_value?`: how they compare.
-/

namespace Alerting.Numeric

def Binary.toRat (x : Binary) : ℚ :=
  (if x.negative then -1 else 1) * (x.significand * 2 ^ x.exponent)

def value? (x : Float) : Option ℚ :=
  (Binary.ofFloat? x).map Binary.toRat

namespace FloatOrder

open Float.Model

/-! ## Values of magnitudes -/

def magnitudeValue (m : Nat) : ℚ :=
  significand m * 2 ^ exponent m

theorem significand_lt_two_pow (m : Nat) : significand m < 2 ^ 53 := by
  unfold significand
  split <;> omega

theorem le_significand {m n : Nat} (h : exponent m < exponent n) : 2 ^ 52 ≤ significand n := by
  unfold exponent at h
  unfold significand
  split_ifs at h ⊢ <;> omega

theorem magnitudeValue_strictMono : StrictMono magnitudeValue := by
  intro m n h
  have hpos : (0 : ℚ) < 2 ^ exponent m := by positivity
  rcases (exponent_mono h.le).eq_or_lt with heq | hlt
  · -- with one exponent the significands decide
    have hsignificand : (significand m : ℚ) < significand n := by
      exact_mod_cast significand_lt heq h
    unfold magnitudeValue
    rw [← heq]
    exact mul_lt_mul_of_pos_right hsignificand hpos
  · have hm : (significand m : ℚ) < 2 ^ 53 := by exact_mod_cast significand_lt_two_pow m
    have hn : (2 ^ 52 : ℚ) ≤ significand n := by exact_mod_cast le_significand hlt
    have hexponent : (2 : ℚ) ^ (exponent m + 1) ≤ 2 ^ exponent n :=
      zpow_le_zpow_right₀ (by norm_num) hlt
    calc magnitudeValue m
        < 2 ^ 53 * 2 ^ exponent m := mul_lt_mul_of_pos_right hm hpos
      _ = 2 ^ 52 * 2 ^ (exponent m + 1) := by
          rw [zpow_add_one₀ (by norm_num)]
          ring
      _ ≤ significand n * 2 ^ exponent n := by gcongr

theorem magnitudeValue_zero : magnitudeValue 0 = 0 := by
  simp [magnitudeValue, significand]

def signedValue (k : Int) : ℚ :=
  if k < 0 then -magnitudeValue k.natAbs else magnitudeValue k.natAbs

theorem signedValue_strictMono : StrictMono signedValue := by
  have hnonneg : ∀ m, 0 ≤ magnitudeValue m := fun m =>
    magnitudeValue_zero ▸ magnitudeValue_strictMono.monotone (Nat.zero_le m)
  intro j k h
  unfold signedValue
  split_ifs with hj hk hk
  · exact neg_lt_neg (magnitudeValue_strictMono (by omega))
  · have hpos : magnitudeValue 0 < magnitudeValue j.natAbs :=
      magnitudeValue_strictMono (by omega)
    rw [magnitudeValue_zero] at hpos
    exact (neg_neg_of_pos hpos).trans_le (hnonneg _)
  · omega
  · exact magnitudeValue_strictMono (by omega)

theorem signedValue_natCast (m : Nat) : signedValue m = magnitudeValue m := by
  unfold signedValue
  rw [if_neg (by omega), Int.natAbs_natCast]

theorem signedValue_neg_natCast (m : Nat) : signedValue (-m) = -magnitudeValue m := by
  unfold signedValue
  split
  · rw [Int.natAbs_neg, Int.natAbs_natCast]
  · -- there is no sign on zero
    obtain rfl : m = 0 := by omega
    simp [magnitudeValue_zero]

/-! ## Values of floats -/

theorem ofFloat?_of_isFinite {x : Float} (h : x.isFinite = true) :
    ∃ narrow, Binary.ofFloat? x =
      some ⟨decide (2 ^ 63 ≤ x.toBits.toNat), significand (magnitude x), exponent (magnitude x),
        narrow⟩ := by
  rw [isFinite_eq, decide_eq_true_eq] at h
  have hbits : x.toBits.toNat < 2 ^ 64 := x.toBits.toNat_lt
  have hnegative : (x.toBits.toNat / Nat.pow 2 63 == 1) = decide (2 ^ 63 ≤ x.toBits.toNat) := by
    rw [Bool.eq_iff_iff, beq_iff_eq, decide_eq_true_iff]
    change x.toBits.toNat / 2 ^ 63 = 1 ↔ _
    omega
  unfold magnitude at h ⊢
  unfold Binary.ofFloat?
  dsimp only
  rw [hnegative]
  generalize x.toBits.toNat = bits at *
  change ∃ narrow, (if bits / 2 ^ 52 % 2 ^ 11 = 2047 then _ else _) = _
  rw [if_neg (by omega)]
  change ∃ narrow, (if bits / 2 ^ 52 % 2 ^ 11 = 0 then _ else _) = _
  unfold significand exponent
  by_cases hzero : bits / 2 ^ 52 % 2 ^ 11 = 0
  · have hfraction : bits % Nat.pow 2 52 = bits % 2 ^ 63 := by
      change bits % 2 ^ 52 = _
      omega
    refine ⟨false, ?_⟩
    rw [if_pos hzero, if_pos (by omega), if_pos (by omega), hfraction]
  · have hfraction : Nat.pow 2 52 + bits % Nat.pow 2 52 = 2 ^ 52 + bits % 2 ^ 63 % 2 ^ 52 := by
      change 2 ^ 52 + bits % 2 ^ 52 = _
      omega
    have hexponent : bits / Nat.pow 2 52 % Nat.pow 2 11 = bits % 2 ^ 63 / 2 ^ 52 := by
      change bits / 2 ^ 52 % 2 ^ 11 = _
      omega
    refine ⟨bits % Nat.pow 2 52 == 0 && decide (1 < bits / Nat.pow 2 52 % Nat.pow 2 11), ?_⟩
    rw [if_neg hzero, if_neg (by omega), if_neg (by omega), hfraction, hexponent]

theorem value?_of_isFinite {x : Float} (h : x.isFinite = true) :
    value? x = some (signedValue (signedMagnitude x)) := by
  obtain ⟨narrow, hparts⟩ := ofFloat?_of_isFinite h
  unfold value?
  rw [hparts, Option.map_some]
  unfold Binary.toRat signedMagnitude signOf
  change some ((if decide (2 ^ 63 ≤ x.toBits.toNat) = true then -1 else 1) *
    magnitudeValue (magnitude x)) = some (signedValue (UnpackedFloat.Sign.apply
      (if x.toBits.toNat < 2 ^ 63 then .positive else .negative) (magnitude x)))
  by_cases hsign : x.toBits.toNat < 2 ^ 63
  · rw [if_neg (by simpa using hsign), if_pos hsign, one_mul]
    exact congrArg some (signedValue_natCast _).symm
  · rw [if_pos (by simpa using hsign), if_neg hsign, neg_one_mul]
    exact congrArg some (signedValue_neg_natCast _).symm

theorem value?_of_not_isFinite {x : Float} (h : x.isFinite = false) : value? x = none := by
  rw [isFinite_eq, decide_eq_false_iff_not] at h
  have hbits : x.toBits.toNat < 2 ^ 64 := x.toBits.toNat_lt
  unfold magnitude at h
  have hones : x.toBits.toNat / Nat.pow 2 52 % Nat.pow 2 11 = 2047 := by
    change x.toBits.toNat / 2 ^ 52 % 2 ^ 11 = 2047
    omega
  unfold value? Binary.ofFloat?
  dsimp only
  rw [if_pos hones]
  rfl

theorem isFinite_of_value? {x : Float} {q : ℚ} (h : value? x = some q) : x.isFinite = true := by
  cases hfinite : x.isFinite with
  | true => rfl
  | false =>
      rw [value?_of_not_isFinite hfinite] at h
      cases h

theorem isSome_value?_iff {x : Float} : (value? x).isSome = true ↔ x.isFinite = true := by
  cases h : x.isFinite with
  | true => simp [value?_of_isFinite h]
  | false => simp [value?_of_not_isFinite h]

section Comparing

variable {x y : Float} {p q : ℚ} (hx : value? x = some p) (hy : value? y = some q)

include hx

theorem isNaN_of_value? : x.isNaN = false :=
  isNaN_of_isFinite (isFinite_of_value? hx)

theorem eq_signedValue : p = signedValue (signedMagnitude x) := by
  rw [value?_of_isFinite (isFinite_of_value? hx)] at hx
  exact (Option.some.inj hx).symm

include hy

theorem lt_iff_of_value? : x < y ↔ p < q := by
  rw [lt_iff (isNaN_of_value? hx) (isNaN_of_value? hy), eq_signedValue hx, eq_signedValue hy,
    signedValue_strictMono.lt_iff_lt]

theorem le_iff_of_value? : x ≤ y ↔ p ≤ q := by
  rw [le_iff (isNaN_of_value? hx) (isNaN_of_value? hy), eq_signedValue hx, eq_signedValue hy,
    signedValue_strictMono.le_iff_le]

theorem beq_iff_of_value? : (x == y) = true ↔ p = q := by
  have hcompare : (x == y) = (x.toModel.unpack.compare y.toModel.unpack == some .eq) := rfl
  rw [hcompare, compare_unpack (isNaN_of_value? hx) (isNaN_of_value? hy), eq_signedValue hx,
    eq_signedValue hy, signedValue_strictMono.injective.eq_iff]
  simp

end Comparing

end FloatOrder

end Alerting.Numeric
