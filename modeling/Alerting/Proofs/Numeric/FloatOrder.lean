import Alerting.Numeric.Binary
import Mathlib
/-!
# The order of floats

A float is a sign and a magnitude, the number that its other 63 bits make.  Magnitudes ascend from
zero over the finite floats to the infinity, and above that one there is only NaN.  So floats that
are numbers are ordered like integers:

* `le_iff`, `lt_iff`: comparing two numbers is comparing their signed magnitudes;
* `isNaN_eq`, `isFinite_eq`: which magnitudes are no number, and which are finite;
* `isNaN_add`: a number and a finite float add up to a number.
-/

namespace Alerting.Numeric.FloatOrder

open Float.Model Float.Model.UnpackedFloat

/-! ## Fields -/

theorem toNat_unpackMantissa (b : BitVec 64) :
    (@unpackMantissa Format.binary64 b).toNat = b.toNat % 2 ^ 52 := by
  simp [unpackMantissa, BitVec.extractLsb]

theorem toNat_unpackExponent (b : BitVec 64) :
    (@unpackExponent Format.binary64 b).toNat = b.toNat / 2 ^ 52 % 2 ^ 11 := by
  simp [unpackExponent, BitVec.extractLsb, Nat.shiftRight_eq_div_pow]

theorem toNat_unpackSign (b : BitVec 64) :
    (@unpackSign Format.binary64 b).toNat = b.toNat / 2 ^ 63 := by
  have hb := b.isLt
  simp [unpackSign, BitVec.extractLsb, Nat.shiftRight_eq_div_pow]
  omega

/-- The significand of the finite float with a magnitude, as an integer. -/
def significand (magnitude : Nat) : Nat :=
  if magnitude < 2 ^ 52 then magnitude else 2 ^ 52 + magnitude % 2 ^ 52

def exponent (magnitude : Nat) : Int :=
  if magnitude < 2 ^ 52 then -1074 else (magnitude / 2 ^ 52 : Nat) - 1075

theorem significand_pos {m : Nat} (hm : m ≠ 0) : 0 < significand m := by
  unfold significand
  split <;> omega

def ofMagnitude (s : Sign) (m : Nat) : UnpackedFloat :=
  if 2047 * 2 ^ 52 < m then .notANumber
  else if m = 2047 * 2 ^ 52 then .infinity s
  else if hm : m = 0 then .zero s
  else .finite s (significand m) (exponent m) (significand_pos hm)

def signOf (b : BitVec 64) : Sign :=
  if b.toNat < 2 ^ 63 then .positive else .negative

theorem sign_unpackSign (b : BitVec 64) :
    Sign.ofBitVec (@unpackSign Format.binary64 b) = signOf b := by
  have hb := b.isLt
  have h := toNat_unpackSign b
  unfold Sign.ofBitVec signOf
  by_cases hlt : b.toNat < 2 ^ 63
  · rw [if_pos hlt, if_pos]
    apply BitVec.eq_of_toNat_eq
    rw [h]
    simp
    omega
  · rw [if_neg hlt, if_neg]
    intro h0
    rw [h0] at h
    simp at h
    omega

theorem toNat_normalMantissa (b : BitVec 64) :
    (1#1 ++ @unpackMantissa Format.binary64 b).toNat = 2 ^ 52 + b.toNat % 2 ^ 52 := by
  rw [BitVec.toNat_append, ← Nat.shiftLeft_add_eq_or_of_lt (BitVec.isLt _), toNat_unpackMantissa]
  rfl

/-- The fields of a float are a function of its sign and its magnitude. -/
theorem unpack_eq_ofMagnitude (b : BitVec 64) :
    UnpackedFloat.unpack Format.binary64 b = ofMagnitude (signOf b) (b.toNat % 2 ^ 63) := by
  have hb := b.isLt
  have hones : @unpackExponent Format.binary64 b = -1#_ ↔
      b.toNat / 2 ^ 52 % 2 ^ 11 = 2047 := by
    rw [← BitVec.toNat_inj, toNat_unpackExponent]
    rfl
  have hzero : @unpackExponent Format.binary64 b = 0#_ ↔
      b.toNat / 2 ^ 52 % 2 ^ 11 = 0 := by
    rw [← BitVec.toNat_inj, toNat_unpackExponent]
    rfl
  have hmantissa : @unpackMantissa Format.binary64 b = 0#_ ↔ b.toNat % 2 ^ 52 = 0 := by
    rw [← BitVec.toNat_inj, toNat_unpackMantissa]
    rfl
  unfold UnpackedFloat.unpack ofMagnitude
  simp only [sign_unpackSign, hones, hzero, hmantissa]
  split
  · split
    · rw [if_neg (by omega), if_pos (by omega)]
    · rw [if_pos (by omega)]
  · split
    · split
      · rw [if_neg (by omega), if_neg (by omega), dif_pos (by omega)]
      · -- a subnormal float has the exponent of the least normal ones
        rw [if_neg (by omega), if_neg (by omega), dif_neg (by omega)]
        congr 1
        · unfold significand
          rw [toNat_unpackMantissa, if_pos (by omega)]
          omega
        · unfold exponent
          rw [toNat_unpackExponent, if_pos (by omega)]
          simp [Format.exponentBias]
          omega
    · rw [if_neg (by omega), if_neg (by omega), dif_neg (by omega)]
      congr 1
      · unfold significand
        rw [toNat_normalMantissa, if_neg (by omega)]
        omega
      · unfold exponent
        rw [toNat_unpackExponent, if_neg (by omega)]
        simp [Format.exponentBias]
        omega

theorem isNaN_ofMagnitude (s : Sign) (m : Nat) :
    (ofMagnitude s m).isNaN = decide (2047 * 2 ^ 52 < m) := by
  unfold ofMagnitude
  split_ifs <;> simp [UnpackedFloat.isNaN] <;> omega

theorem isFinite_ofMagnitude (s : Sign) (m : Nat) :
    (ofMagnitude s m).isFinite = decide (m < 2047 * 2 ^ 52) := by
  unfold ofMagnitude
  split_ifs <;> simp [UnpackedFloat.isFinite] <;> omega

/-! ## Comparing magnitudes -/

theorem exponent_mono {a b : Nat} (h : a ≤ b) : exponent a ≤ exponent b := by
  unfold exponent
  split_ifs <;> omega

theorem significand_lt {a b : Nat} (hexponent : exponent a = exponent b) (h : a < b) :
    significand a < significand b := by
  unfold exponent at hexponent
  unfold significand
  split_ifs at hexponent ⊢ <;> omega

theorem compare_exponent_then_significand (a b : Nat) :
    (compare (exponent a) (exponent b)).then (compare (significand a) (significand b)) =
      compare a b := by
  rcases Nat.lt_trichotomy a b with h | rfl | h
  · rw [Nat.compare_eq_lt.mpr h]
    rcases (exponent_mono h.le).lt_or_eq with he | he
    · rw [Int.compare_eq_lt.mpr he, Ordering.lt_then]
    · rw [Int.compare_eq_eq.mpr he, Ordering.eq_then]
      exact Nat.compare_eq_lt.mpr (significand_lt he h)
  · simp
  · rw [Nat.compare_eq_gt.mpr h]
    rcases (exponent_mono h.le).lt_or_eq with he | he
    · rw [Int.compare_eq_gt.mpr he, Ordering.gt_then]
    · rw [Int.compare_eq_eq.mpr he.symm, Ordering.eq_then]
      exact Nat.compare_eq_gt.mpr (significand_lt he h)

theorem compare_natCast (a b : Nat) : compare (a : Int) (b : Int) = compare a b := by
  rcases Nat.lt_trichotomy a b with h | rfl | h
  · rw [Nat.compare_eq_lt.mpr h, Int.compare_eq_lt.mpr (by omega)]
  · simp
  · rw [Nat.compare_eq_gt.mpr h, Int.compare_eq_gt.mpr (by omega)]

theorem compare_neg_natCast (a b : Nat) :
    compare (-(a : Int)) (-(b : Int)) = (compare a b).swap := by
  rcases Nat.lt_trichotomy a b with h | rfl | h
  · rw [Nat.compare_eq_lt.mpr h, Int.compare_eq_gt.mpr (by omega)]
    rfl
  · simp
  · rw [Nat.compare_eq_gt.mpr h, Int.compare_eq_lt.mpr (by omega)]
    rfl

theorem ofMagnitude_zero (s : Sign) : ofMagnitude s 0 = .zero s := by
  unfold ofMagnitude
  rw [if_neg (by omega), if_neg (by omega), dif_pos rfl]

theorem ofMagnitude_infinity (s : Sign) : ofMagnitude s (2047 * 2 ^ 52) = .infinity s := by
  unfold ofMagnitude
  rw [if_neg (by omega), if_pos rfl]

theorem ofMagnitude_finite (s : Sign) {m : Nat} (hpos : 0 < m) (hm : m < 2047 * 2 ^ 52) :
    ofMagnitude s m =
      .finite s (significand m) (exponent m) (significand_pos hpos.ne') := by
  unfold ofMagnitude
  rw [if_neg (by omega), if_neg (by omega), dif_neg hpos.ne']

theorem magnitude_cases {m : Nat} (h : m ≤ 2047 * 2 ^ 52) :
    m = 0 ∨ m = 2047 * 2 ^ 52 ∨ 0 < m ∧ m < 2047 * 2 ^ 52 := by
  omega

theorem compare_ofMagnitude (s t : Sign) {a b : Nat} (ha : a ≤ 2047 * 2 ^ 52)
    (hb : b ≤ 2047 * 2 ^ 52) :
    (ofMagnitude s a).compare (ofMagnitude t b) = some (compare (s.apply a) (t.apply b)) := by
  -- zeros, infinities and the floats between them are compared by rules of their own
  rcases magnitude_cases ha with rfl | rfl | ⟨hapos, halt⟩ <;>
    rcases magnitude_cases hb with rfl | rfl | ⟨hbpos, hblt⟩
  case inr.inr.inr.inr =>
    rw [ofMagnitude_finite s hapos halt, ofMagnitude_finite t hbpos hblt]
    have hcompare := compare_exponent_then_significand a b
    cases s <;> cases t
    · change some (Ordering.swap _) = some (compare (-(a : Int)) (-(b : Int)))
      rw [hcompare, compare_neg_natCast]
    · exact congrArg some (Int.compare_eq_lt.mpr (by simp [Sign.apply]; omega)).symm
    · exact congrArg some (Int.compare_eq_gt.mpr (by simp [Sign.apply]; omega)).symm
    · change some _ = some (compare (a : Int) (b : Int))
      rw [hcompare, compare_natCast]
  case inr.inl.inr.inl =>
    rw [ofMagnitude_infinity, ofMagnitude_infinity]
    cases s <;> cases t <;> rfl
  case' inr.inr.inl | inr.inr.inr.inl => rw [ofMagnitude_finite s hapos halt]
  case' inl.inr.inr | inr.inl.inr.inr => rw [ofMagnitude_finite t hbpos hblt]
  all_goals
    simp only [ofMagnitude_zero, ofMagnitude_infinity]
    cases s <;> cases t <;> refine congrArg some (Eq.symm ?_) <;>
      simp [Int.compare_eq_lt, Int.compare_eq_gt, Sign.apply] <;> omega

/-! ## Floats -/

def magnitude (x : Float) : Nat :=
  x.toBits.toNat % 2 ^ 63

def signedMagnitude (x : Float) : Int :=
  (signOf x.toBits.toBitVec).apply (magnitude x)

theorem unpack_eq (x : Float) :
    x.toModel.unpack = ofMagnitude (signOf x.toBits.toBitVec) (magnitude x) :=
  unpack_eq_ofMagnitude x.toBits.toBitVec

theorem isNaN_eq (x : Float) : x.isNaN = decide (2047 * 2 ^ 52 < magnitude x) := by
  change x.toModel.unpack.isNaN = _
  rw [unpack_eq, isNaN_ofMagnitude]

theorem isFinite_eq (x : Float) : x.isFinite = decide (magnitude x < 2047 * 2 ^ 52) := by
  change x.toModel.unpack.isFinite = _
  rw [unpack_eq, isFinite_ofMagnitude]

theorem compare_unpack {x y : Float} (hx : x.isNaN = false) (hy : y.isNaN = false) :
    x.toModel.unpack.compare y.toModel.unpack =
      some (compare (signedMagnitude x) (signedMagnitude y)) := by
  rw [isNaN_eq, decide_eq_false_iff_not, not_lt] at hx hy
  rw [unpack_eq, unpack_eq, compare_ofMagnitude _ _ hx hy]
  rfl

theorem le_iff {x y : Float} (hx : x.isNaN = false) (hy : y.isNaN = false) :
    x ≤ y ↔ signedMagnitude x ≤ signedMagnitude y := by
  have h : x ≤ y ↔ (x.toModel.unpack.compare y.toModel.unpack).any (·.isLE) = true :=
    decide_eq_true_iff
  rw [h, compare_unpack hx hy]
  simp [Ordering.isLE_iff_ne_gt, Int.compare_ne_gt]

theorem lt_iff {x y : Float} (hx : x.isNaN = false) (hy : y.isNaN = false) :
    x < y ↔ signedMagnitude x < signedMagnitude y := by
  have h : x < y ↔ (x.toModel.unpack.compare y.toModel.unpack == some .lt) = true :=
    decide_eq_true_iff
  rw [h, compare_unpack hx hy]
  simp [Int.compare_eq_lt]

theorem le_refl {x : Float} (hx : x.isNaN = false) : x ≤ x := by
  rw [le_iff hx hx]

/-! ## Sums -/

theorem isNaN_unpack (b : BitVec 64) :
    (UnpackedFloat.unpack Format.binary64 b).isNaN = true ↔
      @unpackExponent Format.binary64 b = -1#_ ∧
        @unpackMantissa Format.binary64 b ≠ 0#_ := by
  unfold UnpackedFloat.unpack
  dsimp only
  split_ifs <;> simp_all [UnpackedFloat.isNaN]

theorem isNaN_unpack_pack {u : UnpackedFloat} (h : u.isNaN = false) :
    (UnpackedFloat.unpack Format.binary64 (UnpackedFloat.pack Format.binary64 u)).isNaN =
      false := by
  rw [Bool.eq_false_iff]
  intro hnan
  obtain ⟨hexponent, hmantissa⟩ := (isNaN_unpack _).mp hnan
  cases u with
  | notANumber => simp [UnpackedFloat.isNaN] at h
  | infinity s => simp [UnpackedFloat.pack, packedInfinity] at hmantissa
  | zero s => simp [UnpackedFloat.pack, packedZero] at hmantissa
  | finite s m e hm =>
      unfold UnpackedFloat.pack at hexponent hmantissa
      dsimp only at hexponent hmantissa
      generalize (e + Format.binary64.exponentBias + 52).toNat = biased at hexponent hmantissa
      by_cases hbig : 2 ^ 11 ≤ biased + 1
      · rw [if_pos hbig] at hmantissa
        simp [packedInfinity] at hmantissa
      · rw [if_neg hbig] at hexponent
        have hne : BitVec.ofNat 11 biased ≠ -1#11 := by
          intro heq
          have hnat := congrArg BitVec.toNat heq
          simp at hnat
          omega
        split_ifs at hexponent
        · exact hne (by simpa using hexponent)
        · simp at hexponent

theorem isNaN_normalize (m e : Int) (s : Sign) :
    (UnpackedFloat.normalize Format.binary64 m e s).isNaN = false := by
  have hround : ∀ t n, (UnpackedFloat.round Format.binary64 t n e).isNaN = false := by
    intro t n
    unfold UnpackedFloat.round roundWithAccuracy
    dsimp only
    split <;> rfl
  unfold UnpackedFloat.normalize
  split
  · exact hround _ _
  · rfl
  · exact hround _ _

theorem isNaN_addUnpacked {u v : UnpackedFloat} (hu : u.isNaN = false) (hv : v.isFinite = true) :
    (UnpackedFloat.add Format.binary64 u v).isNaN = false := by
  cases v with
  | notANumber => simp [UnpackedFloat.isFinite] at hv
  | infinity t => simp [UnpackedFloat.isFinite] at hv
  | zero t =>
      cases u with
      | notANumber => simp [UnpackedFloat.isNaN] at hu
      | infinity s => rfl
      | zero s => cases s <;> cases t <;> rfl
      | finite s m e hm => rfl
  | finite t n k hn =>
      cases u with
      | notANumber => simp [UnpackedFloat.isNaN] at hu
      | infinity s => rfl
      | zero s => rfl
      | finite s m e hm => exact isNaN_normalize _ _ _

theorem isNaN_add {x y : Float} (hx : x.isNaN = false) (hy : y.isFinite = true) :
    (x + y).isNaN = false := by
  change (UnpackedFloat.unpack Format.binary64 (UInt64.ofBitVec (UnpackedFloat.pack Format.binary64
    (UnpackedFloat.add Format.binary64 x.toModel.unpack y.toModel.unpack))).toBitVec).isNaN = false
  exact isNaN_unpack_pack (isNaN_addUnpacked hx hy)

theorem isNaN_of_isFinite {x : Float} (h : x.isFinite = true) : x.isNaN = false := by
  rw [isFinite_eq, decide_eq_true_eq] at h
  rw [isNaN_eq, decide_eq_false_iff_not]
  omega

/-- A sum of finite floats is a number. -/
theorem isNaN_foldl_add {l : List Float} (hl : ∀ x ∈ l, x.isFinite = true) {start : Float}
    (hstart : start.isNaN = false) : (l.foldl (· + ·) start).isNaN = false := by
  induction l generalizing start with
  | nil => exact hstart
  | cons x rest ih =>
      rw [List.forall_mem_cons] at hl
      exact ih hl.2 (isNaN_add hstart hl.1)

end Alerting.Numeric.FloatOrder
