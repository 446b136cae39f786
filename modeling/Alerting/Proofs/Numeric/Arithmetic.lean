import Alerting.Proofs.Numeric.Rounding
/-!
# Arithmetic of positive floats

A normal float is positive and has all of its 53 digits.  Where the exact result of an operation on
normal floats is far from the least and the greatest one, the operation gives the float nearest to
it: `IsNormal.mul`, `IsNormal.div`, `IsNormal.add`.  Reading a decimal as a float does so as well,
`isNormal_ofScientific`.
-/

namespace Alerting.Numeric

open FloatOrder Float.Model Float.Model.UnpackedFloat

/-! ## Normal floats -/

/-- Whether a positive float has all of its digits and this value. -/
structure IsNormal (x : Float) (q : ℚ) : Prop where
  lower : 2 ^ 52 ≤ x.toBits.toNat
  upper : x.toBits.toNat < 2047 * 2 ^ 52
  value : magnitudeValue x.toBits.toNat = q

/-- Whether a number is far from the least and the greatest float. -/
def IsModerate (q : ℚ) : Prop :=
  2 ^ (-200 : Int) ≤ q ∧ q < 2 ^ (200 : Int)

section Normal

variable {x : Float} {q : ℚ} (hx : IsNormal x q)

include hx

theorem IsNormal.signOf_eq : signOf x.toBits.toBitVec = .positive :=
  if_pos (by
    have := hx.upper
    change x.toBits.toNat < 2 ^ 63
    omega)

theorem IsNormal.magnitude_eq : magnitude x = x.toBits.toNat :=
  Nat.mod_eq_of_lt (by
    have := hx.upper
    omega)

theorem IsNormal.isFinite : x.isFinite = true := by
  rw [isFinite_eq, hx.magnitude_eq, decide_eq_true_iff]
  exact hx.upper

theorem IsNormal.value?_eq : value? x = some q := by
  rw [value?_of_isFinite hx.isFinite, signedMagnitude, hx.signOf_eq, hx.magnitude_eq]
  change some (signedValue (x.toBits.toNat : Int)) = some q
  rw [signedValue_natCast, hx.value]

theorem IsNormal.exists_unpack : ∃ m e hm, x.toModel.unpack = .finite .positive m e hm ∧
    2 ^ 52 ≤ m ∧ m < 2 ^ 53 ∧ -1074 ≤ e ∧ e ≤ 971 ∧ m * 2 ^ e = q := by
  have hlower := hx.lower
  have hupper := hx.upper
  refine ⟨_, _, significand_pos (by omega), ?_, ?_, significand_lt_two_pow _, ?_, ?_, hx.value⟩
  · rw [unpack_eq, hx.signOf_eq, hx.magnitude_eq]
    exact ofMagnitude_finite _ (by omega) hupper
  · unfold significand
    rw [if_neg (by omega)]
    omega
  · unfold exponent
    split <;> omega
  · unfold exponent
    split <;> omega

theorem IsNormal.pos : 0 < q := by
  rw [← hx.value]
  have hpos : magnitudeValue 0 < magnitudeValue x.toBits.toNat :=
    magnitudeValue_strictMono (by have := hx.lower; omega)
  rwa [magnitudeValue_zero] at hpos

end Normal

/-- The bits of a float are its sign, its exponent and its digits after the first one. -/
theorem toNat_packComponents (s : Sign) (exponent : BitVec 11) (mantissa : BitVec 52) :
    (packComponents Format.binary64 s exponent mantissa).toNat =
      s.toBitVec.toNat * 2 ^ 63 + (exponent.toNat * 2 ^ 52 + mantissa.toNat) := by
  have happend : (packComponents Format.binary64 s exponent mantissa).toNat =
      ((s.toBitVec ++ exponent) ++ mantissa).toNat := rfl
  rw [happend, BitVec.toNat_append, ← Nat.shiftLeft_add_eq_or_of_lt mantissa.isLt,
    Nat.shiftLeft_eq, BitVec.toNat_append, ← Nat.shiftLeft_add_eq_or_of_lt exponent.isLt,
    Nat.shiftLeft_eq]
  ring

section Pack

variable {m : Nat} {e : Int} (hm : 0 < m) (hlow : 2 ^ 52 ≤ m) (hlt : m < 2 ^ 53) (helow : -1074 ≤ e)
  (hele : e ≤ 971)

include hlow hlt helow hele

theorem toNat_toBits_pack (s : Sign) :
    (Float.ofModel (.pack (.finite s m e hm))).toBits.toNat =
      s.toBitVec.toNat * 2 ^ 63 + ((e + 1075).toNat * 2 ^ 52 + (m - 2 ^ 52)) := by
  have hlog : m.log2 = 52 := (Nat.log2_eq_iff hm.ne').mpr ⟨hlow, hlt⟩
  have hbiased : (e + Format.binary64.exponentBias + (52 : Nat)).toNat = (e + 1075).toNat := by
    change (e + 1023 + 52).toNat = _
    omega
  change (UnpackedFloat.pack Format.binary64 (.finite s m e hm)).toNat = _
  unfold UnpackedFloat.pack
  dsimp only
  rw [hbiased, hlog, if_neg (by omega),
    if_pos (show 52 + 1 = Format.binary64.mantissaBits from rfl),
    toNat_packComponents, BitVec.toNat_ofNat, BitVec.toNat_ofNat]
  omega

theorem isNormal_ofModel_pack :
    IsNormal (.ofModel (.pack (.finite .positive m e hm))) (m * 2 ^ e) := by
  have hbits := toNat_toBits_pack hm hlow hlt helow hele .positive
  rw [show Sign.positive.toBitVec.toNat = 0 from rfl, Nat.zero_mul, Nat.zero_add] at hbits
  have hsignificand : significand ((e + 1075).toNat * 2 ^ 52 + (m - 2 ^ 52)) = m := by
    unfold significand
    rw [if_neg (by omega)]
    omega
  have hexponent : exponent ((e + 1075).toNat * 2 ^ 52 + (m - 2 ^ 52)) = e := by
    unfold exponent
    rw [if_neg (by omega)]
    omega
  constructor
  · omega
  · omega
  · rw [hbits, magnitudeValue, hsignificand, hexponent]

end Pack

/-- What is rounded to 53 digits is a normal float, unless it is too great or too small. -/
theorem isNormal_round {x : ℚ} (hx : 2 ^ 52 ≤ x) {e : Int} {accuracy : Accuracy}
    (haccuracy : .ofMantissaAndAccuracy ⌊x⌋₊ accuracy = cutOff x) (hq : IsModerate (x * 2 ^ e)) :
    IsNormal (.ofModel (.pack (roundWithAccuracy Format.binary64 .positive ⌊x⌋₊ e accuracy)))
      (rounded (x * 2 ^ e)) := by
  obtain ⟨hlow, hhigh⟩ := hq
  have hpos : 0 < x * 2 ^ e := (two_zpow_pos _).trans_le hlow
  have hloglow : -200 ≤ Int.log 2 (x * 2 ^ e) :=
    (Int.zpow_le_iff_le_log (by norm_num) hpos).mp hlow
  have hloghigh : Int.log 2 (x * 2 ^ e) < 200 :=
    (Int.lt_zpow_iff_log_lt (by norm_num) hpos).mp hhigh
  have hplace : lastPlace (x * 2 ^ e) = Int.log 2 (x * 2 ^ e) - 52 := rfl
  obtain ⟨m, k, hm, hround, hmlow, hmlt, hklow, hkle, hvalue⟩ :=
    exists_roundWithAccuracy hx haccuracy (e := e) (by omega) .positive
  rw [hround, ← hvalue]
  exact isNormal_ofModel_pack hm hmlow hmlt (by omega) (by omega)

theorem isNormal_round_exact {n : Nat} (hn : 2 ^ 52 ≤ n) {e : Int}
    (hq : IsModerate (n * 2 ^ e)) :
    IsNormal (.ofModel (.pack (roundWithAccuracy Format.binary64 .positive n e .exact)))
      (rounded (n * 2 ^ e)) := by
  have hfloor : ⌊(n : ℚ)⌋₊ = n := Nat.floor_natCast n
  have haccuracy : .ofMantissaAndAccuracy ⌊(n : ℚ)⌋₊ .exact = cutOff n := by
    rw [hfloor, cutOff_natCast]
    rfl
  have hnormal := isNormal_round (by exact_mod_cast hn) haccuracy hq
  rwa [hfloor] at hnormal

theorem isNormal_round_nat {n : Nat} (hn : 0 < n) {e : Int} (hq : IsModerate (n * 2 ^ e)) :
    IsNormal (.ofModel (.pack (UnpackedFloat.round Format.binary64 .positive n e)))
      (rounded (n * 2 ^ e)) := by
  have hpos : (0 : ℚ) < n * 2 ^ e := (two_zpow_pos _).trans_le hq.1
  have hlog : Int.log 2 ((n : ℚ) * 2 ^ e) = n.log2 + e := by
    rw [log_mul_two_zpow (by exact_mod_cast hn), Nat.floor_natCast]
  have hloglow : -200 ≤ Int.log 2 ((n : ℚ) * 2 ^ e) :=
    (Int.zpow_le_iff_le_log (by norm_num) hpos).mp hq.1
  obtain ⟨shift, hshift⟩ : ∃ shift, (e - Format.binary64.targetExponent
    (totalExponent n e)).toNat = shift := ⟨_, rfl⟩
  have hfill : shift = 52 - n.log2 := by
    rw [← hshift, targetExponent_eq]
    omega
  have hfull : 2 ^ 52 ≤ n <<< shift := by
    rw [Nat.shiftLeft_eq]
    calc 2 ^ 52 ≤ 2 ^ (n.log2 + shift) := Nat.pow_le_pow_right (by norm_num) (by omega)
      _ = 2 ^ n.log2 * 2 ^ shift := Nat.pow_add ..
      _ ≤ n * 2 ^ shift := Nat.mul_le_mul_right _ (Nat.log2_self_le hn.ne')
  have hvalue : (n : ℚ) * 2 ^ e = (n <<< shift : Nat) * 2 ^ (e - shift) := by
    rw [Nat.shiftLeft_eq, zpow_sub₀ (by norm_num), zpow_natCast]
    push_cast
    field_simp
  unfold UnpackedFloat.round decreaseExponent
  dsimp only
  rw [hshift]
  rw [hvalue] at hq ⊢
  exact isNormal_round_exact hfull hq

/-! ## Operations -/

/-- A quotient of full significands is taken with 53 more digits. -/
theorem divCore_eq {m n : Nat} (hm : m.log2 = 52) (hn : n.log2 = 52) {e k : Int}
    (he : -1021 ≤ e - k) :
    divCore Format.binary64 m e n k =
      (m * 2 ^ 53 / n, e - k - 53, accuracyOfFraction (m * 2 ^ 53 % n) n) := by
  have htarget : Format.binary64.targetExponent (totalExponent m e - totalExponent n k) =
      max (totalExponent m e - totalExponent n k - 53) (-1074) := rfl
  have hexponent : min (e - k) (Format.binary64.targetExponent
      (totalExponent m e - totalExponent n k)) = e - k - 53 := by
    rw [htarget, totalExponent, totalExponent, hm, hn]
    omega
  have hshift : (e - k - (e - k - 53)).toNat = 53 := by omega
  unfold divCore
  dsimp only
  rw [hexponent, hshift, Nat.shiftLeft_eq]

theorem shiftLeft_mul_two_zpow (m : Nat) {e low : Int} (he : low ≤ e) :
    ((m <<< (e - low).toNat : Nat) : ℚ) * 2 ^ low = m * 2 ^ e := by
  have hsplit : e = (e - low).toNat + low := by omega
  rw [Nat.shiftLeft_eq, hsplit, zpow_add₀ (by norm_num), zpow_natCast, ← hsplit]
  push_cast
  ring

namespace IsNormal

variable {x y : Float} {p q : ℚ} (hx : IsNormal x p) (hy : IsNormal y q)

include hx hy

theorem mul (hpq : IsModerate (p * q)) : IsNormal (x * y) (rounded (p * q)) := by
  obtain ⟨m, e, hm, hunpack, hlow, hlt, -, -, rfl⟩ := hx.exists_unpack
  obtain ⟨n, k, hn, hunpack', hlow', hlt', -, -, rfl⟩ := hy.exists_unpack
  change IsNormal (.ofModel (.pack (UnpackedFloat.mul Format.binary64 x.toModel.unpack
    y.toModel.unpack))) _
  rw [hunpack, hunpack']
  have hproduct : (m : ℚ) * 2 ^ e * (n * 2 ^ k) = (m * n : Nat) * 2 ^ (e + k) := by
    rw [zpow_add₀ (by norm_num)]
    push_cast
    ring
  rw [hproduct] at hpq ⊢
  exact isNormal_round_exact (hlow.trans (Nat.le_mul_of_pos_right m hn)) hpq

theorem div (hpq : IsModerate (p / q)) : IsNormal (x / y) (rounded (p / q)) := by
  obtain ⟨m, e, hm, hunpack, hlow, hlt, -, -, rfl⟩ := hx.exists_unpack
  obtain ⟨n, k, hn, hunpack', hlow', hlt', -, -, rfl⟩ := hy.exists_unpack
  change IsNormal (.ofModel (.pack (UnpackedFloat.div Format.binary64 x.toModel.unpack
    y.toModel.unpack))) _
  rw [hunpack, hunpack']
  have hnpos : (0 : ℚ) < n := by exact_mod_cast hn
  have hquotient : (m : ℚ) * 2 ^ e / (n * 2 ^ k) =
      (m * 2 ^ 53 : Nat) / n * 2 ^ (e - k - 53) := by
    rw [zpow_sub₀ (by norm_num), zpow_sub₀ (by norm_num)]
    push_cast
    field_simp
  rw [hquotient] at hpq ⊢
  have hfull : (2 : ℚ) ^ 52 ≤ (m * 2 ^ 53 : Nat) / n := by
    rw [le_div_iff₀ hnpos]
    have hle : 2 ^ 52 * n ≤ m * 2 ^ 53 := Nat.mul_le_mul hlow hlt'.le
    exact_mod_cast hle
  have hsmall : ((m * 2 ^ 53 : Nat) : ℚ) / n < 2 ^ (54 : Int) := by
    rw [div_lt_iff₀ hnpos]
    have hle : m * 2 ^ 53 < 2 ^ 54 * n := by omega
    exact_mod_cast hle
  -- a quotient of full significands does not carry the exponent far
  have hexponent : -1021 ≤ e - k := by
    have hlt : (2 : ℚ) ^ (-200 : Int) < 2 ^ ((54 : Int) + (e - k - 53)) := by
      rw [zpow_add₀ (by norm_num)]
      exact hpq.1.trans_lt (mul_lt_mul_of_pos_right hsmall (two_zpow_pos _))
    have := (zpow_lt_zpow_iff_right₀ (by norm_num)).mp hlt
    omega
  have hcore := divCore_eq ((Nat.log2_eq_iff hm.ne').mpr ⟨hlow, hlt⟩)
    ((Nat.log2_eq_iff hn.ne').mpr ⟨hlow', hlt'⟩) hexponent
  have hfloor : ⌊((m * 2 ^ 53 : Nat) : ℚ) / n⌋₊ = m * 2 ^ 53 / n := Nat.floor_div_eq_div _ _
  have haccuracy : .ofMantissaAndAccuracy ⌊((m * 2 ^ 53 : Nat) : ℚ) / n⌋₊
      (accuracyOfFraction (m * 2 ^ 53 % n) n) = cutOff ((m * 2 ^ 53 : Nat) / n) := by
    rw [hfloor, cutOff_div hn]
  have hnormal := isNormal_round hfull haccuracy hpq
  rw [hfloor] at hnormal
  change IsNormal (.ofModel (.pack (match divCore Format.binary64 m e n k with
    | (m, e, accuracy) => roundWithAccuracy Format.binary64 .positive m e accuracy))) _
  rw [hcore]
  exact hnormal

theorem add (hpq : IsModerate (p + q)) : IsNormal (x + y) (rounded (p + q)) := by
  obtain ⟨m, e, hm, hunpack, hlow, hlt, -, -, rfl⟩ := hx.exists_unpack
  obtain ⟨n, k, hn, hunpack', hlow', hlt', -, -, rfl⟩ := hy.exists_unpack
  change IsNormal (.ofModel (.pack (UnpackedFloat.add Format.binary64 x.toModel.unpack
    y.toModel.unpack))) _
  rw [hunpack, hunpack']
  have hsum : (m : ℚ) * 2 ^ e + n * 2 ^ k =
      (m <<< (e - min e k).toNat + n <<< (k - min e k).toNat : Nat) * 2 ^ min e k := by
    rw [Nat.cast_add, add_mul, shiftLeft_mul_two_zpow m (min_le_left e k),
      shiftLeft_mul_two_zpow n (min_le_right e k)]
  rw [hsum] at hpq ⊢
  have hpos : 0 < m <<< (e - min e k).toNat + n <<< (k - min e k).toNat := by
    rw [Nat.shiftLeft_eq]
    positivity
  have hadd :
      UnpackedFloat.add Format.binary64 (.finite .positive m e hm) (.finite .positive n k hn) =
      normalize Format.binary64
        (m <<< (e - min e k).toNat + n <<< (k - min e k).toNat : Nat) (min e k) .positive := rfl
  rw [hadd]
  unfold UnpackedFloat.normalize
  rw [Int.compare_eq_gt.mpr (by omega)]
  exact isNormal_round_nat hpos hpq

end IsNormal

theorem IsNormal.zero_add {x : Float} {q : ℚ} (hx : IsNormal x q) :
    IsNormal (Float.ofNat 0 + x) q := by
  obtain ⟨m, e, hm, hunpack, hlow, hlt, helow, hele, rfl⟩ := hx.exists_unpack
  have hzero : (Float.ofNat 0).toModel.unpack = .zero .positive := by rfl
  change IsNormal (.ofModel (.pack (UnpackedFloat.add Format.binary64 (Float.ofNat 0).toModel.unpack
    x.toModel.unpack))) _
  rw [hzero, hunpack]
  exact isNormal_ofModel_pack hm hlow hlt helow hele

theorem IsNormal.eq {x y : Float} {q : ℚ} (hx : IsNormal x q) (hy : IsNormal y q) : x = y := by
  have hbits : x.toBits.toNat = y.toBits.toNat :=
    magnitudeValue_strictMono.injective (hx.value.trans hy.value.symm)
  exact toBits_injective (UInt64.toNat_inj.mp hbits)

theorem IsNormal.toNat_toBits_neg {x : Float} {q : ℚ} (hx : IsNormal x q) :
    (-x).toBits.toNat = 2 ^ 63 + x.toBits.toNat := by
  obtain ⟨m, e, hm, hunpack, hlow, hlt, helow, hele, rfl⟩ := hx.exists_unpack
  have hpositive : x = .ofModel (.pack (.finite .positive m e hm)) :=
    hx.eq (isNormal_ofModel_pack hm hlow hlt helow hele)
  have hnegative : -x = .ofModel (.pack (.finite .negative m e hm)) := by
    change Float.ofModel (.pack x.toModel.unpack.neg) = _
    rw [hunpack]
    rfl
  have hbits := toNat_toBits_pack hm hlow hlt helow hele .positive
  rw [← hpositive] at hbits
  rw [hnegative, toNat_toBits_pack hm hlow hlt helow hele, hbits]
  change 1 * 2 ^ 63 + _ = 2 ^ 63 + (0 * 2 ^ 63 + _)
  omega

theorem IsNormal.value?_neg {x : Float} {q : ℚ} (hx : IsNormal x q) : value? (-x) = some (-q) := by
  have hbits := hx.toNat_toBits_neg
  have hupper := hx.upper
  have hmagnitude : magnitude (-x) = x.toBits.toNat := by
    unfold magnitude
    omega
  have hfinite : (-x).isFinite = true := by
    rw [isFinite_eq, hmagnitude, decide_eq_true_iff]
    exact hupper
  have hsign : signOf (-x).toBits.toBitVec = .negative := by
    refine if_neg ?_
    rw [UInt64.toNat_toBitVec]
    omega
  rw [value?_of_isFinite hfinite, signedMagnitude, hsign, hmagnitude]
  change some (signedValue (-(x.toBits.toNat : Int))) = _
  rw [signedValue_neg_natCast, hx.value]

/-! ## Signs -/

def signed (negative : Bool) (x : Float) : Float :=
  if negative then -x else x

theorem IsNormal.value?_signed {x : Float} {q : ℚ} (hx : IsNormal x q) (negative : Bool) :
    value? (signed negative x) = some (if negative then -q else q) := by
  cases negative with
  | true => exact hx.value?_neg
  | false => exact hx.value?_eq

/-! ## Reading decimals -/

theorem isModerate_natCast {n : Nat} (hn : 0 < n) (hlt : n < 2 ^ 200) : IsModerate n := by
  constructor
  · have hone : (1 : ℚ) ≤ n := by exact_mod_cast hn
    exact (zpow_le_one_of_nonpos₀ (by norm_num) (by norm_num)).trans hone
  · have hcast : (n : ℚ) < (2 ^ 200 : Nat) := by exact_mod_cast hlt
    rw [← Nat.cast_ofNat (n := 200), zpow_natCast]
    exact_mod_cast hcast

theorem isNormal_toFloat {n : Nat} (hn : 0 < n) (hlt : n < 2 ^ 53) :
    IsNormal n.toUInt64.toFloat n := by
  have hunsigned : n.toUInt64.toNat = n := Nat.mod_eq_of_lt (by omega)
  have hvalue : rounded (n * 2 ^ (0 : Int)) = n := by
    rw [rounded_of_eq hn hlt rfl, zpow_zero, mul_one]
  have hmoderate : IsModerate (n * 2 ^ (0 : Int)) := by
    rw [zpow_zero, mul_one]
    exact isModerate_natCast hn (hlt.trans (by norm_num))
  change IsNormal (.ofModel (.pack (normalize Format.binary64 (n.toUInt64.toNat : Int) 0
    .positive))) n
  rw [hunsigned, ← hvalue]
  unfold UnpackedFloat.normalize
  rw [Int.compare_eq_gt.mpr (by omega)]
  exact isNormal_round_nat hn hmoderate

/-- The powers of ten that are floats are kept as floats. -/
theorem isNormal_powersOfTen (k : Fin 23) :
    IsNormal Float.exactlyRepresentablePowersOfTen[k] (10 ^ k.val) := by
  have hbits : ∀ k : Fin 23, let bits := Float.exactlyRepresentablePowersOfTen[k].toBits.toNat
      2 ^ 52 ≤ bits ∧ bits < 2047 * 2 ^ 52 ∧
        significand bits * 2 ^ (exponent bits).toNat = 10 ^ k.val * 2 ^ (-exponent bits).toNat := by
    decide
  obtain ⟨hlow, hhigh, hvalue⟩ := hbits k
  refine ⟨hlow, hhigh, ?_⟩
  generalize Float.exactlyRepresentablePowersOfTen[k].toBits.toNat = bits at hvalue
  have hexponent : exponent bits = (exponent bits).toNat - ((-exponent bits).toNat : Int) := by
    omega
  rw [magnitudeValue, hexponent, zpow_sub₀ (by norm_num), zpow_natCast, zpow_natCast,
    mul_div_assoc', div_eq_iff (by positivity)]
  exact_mod_cast hvalue

theorem isNormal_ofScientific {m k : Nat} (hm : 0 < m) (hlt : m * 10 ^ k < 2 ^ 200) :
    IsNormal (.ofScientific m false k) (rounded (m * 10 ^ k)) := by
  have hmoderate : IsModerate ((m : ℚ) * 10 ^ k) := by
    have hcast := isModerate_natCast (Nat.mul_pos hm (Nat.pow_pos (by norm_num))) hlt
    exact_mod_cast hcast
  unfold Float.ofScientific
  split
  · next hfast =>
    exact (isNormal_toFloat hm hfast.1).mul (isNormal_powersOfTen ⟨k, by omega⟩) hmoderate
  · have hk : k < 200 := by
      have hpow : 2 ^ k < 2 ^ 200 :=
        calc 2 ^ k ≤ 10 ^ k := Nat.pow_le_pow_left (by norm_num) k
          _ ≤ m * 10 ^ k := Nat.le_mul_of_pos_left _ hm
          _ < 2 ^ 200 := hlt
      exact (Nat.pow_lt_pow_iff_right (by norm_num)).mp hpow
    have hvalue : (m * 10 ^ k : ℚ) = (m <<< 53 * 10 ^ k : Nat) * 2 ^ (-53 + 0 : Int) := by
      rw [Nat.shiftLeft_eq]
      push_cast
      norm_num
      ring
    have hfull : 2 ^ 52 ≤ m <<< 53 * 10 ^ k := by
      rw [Nat.shiftLeft_eq]
      have hpow : 1 ≤ 10 ^ k := Nat.pow_pos (by norm_num)
      nlinarith
    change IsNormal (.ofModel (.pack (UnpackedFloat.ofScientific Format.binary64 m (k : Int)))) _
    have hbits : (2 : Int) ^ Format.binary64.exponentBits = 2048 := rfl
    unfold UnpackedFloat.ofScientific
    rw [dif_neg hm.ne', hbits, if_neg (by omega), if_neg (by omega), if_pos (by omega)]
    rw [hvalue] at hmoderate ⊢
    exact isNormal_round_exact hfull hmoderate

end Alerting.Numeric
