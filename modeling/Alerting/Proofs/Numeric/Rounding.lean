import Alerting.Proofs.Numeric.FloatValue
import Alerting.Proofs.Numeric.NegativeZero
/-!
# Rounding to the nearest float

A number is rounded in two steps.  Its binary digits are cut off after the 53rd one, and two bits
say how much was cut off; these bits then decide whether the last digit goes up.  So the rounded
number is the nearest one with 53 digits, and of two equally near ones the one that ends with zero:

* `nearest` and `rounded`: the nearest natural number, and the nearest number of 53 digits;
* `abs_rounded_sub_le`, `rounded_of_eq`: how far off the latter is, and what is not changed by it;
* `exists_roundWithAccuracy`: this is how the parts of a float are rounded.
-/

namespace Alerting.Numeric

/-! ## The nearest natural number -/

/-- The nearest natural number; of two equally near ones it is the even one. -/
def nearest (x : ℚ) : Nat :=
  if x - ⌊x⌋₊ < 1 / 2 then ⌊x⌋₊
  else if 1 / 2 < x - ⌊x⌋₊ then ⌊x⌋₊ + 1
  else ⌊x⌋₊ + ⌊x⌋₊ % 2

theorem nearest_natCast (n : Nat) : nearest n = n := by
  simp [nearest]

section Nearest

variable {x : ℚ}

theorem floor_le_nearest (x : ℚ) : ⌊x⌋₊ ≤ nearest x := by
  unfold nearest
  split_ifs <;> omega

theorem nearest_le_floor_add_one (x : ℚ) : nearest x ≤ ⌊x⌋₊ + 1 := by
  unfold nearest
  split_ifs <;> omega

theorem abs_nearest_sub_le (hx : 0 ≤ x) : |(nearest x : ℚ) - x| ≤ 1 / 2 := by
  have hfloor : (⌊x⌋₊ : ℚ) ≤ x := Nat.floor_le hx
  have hlt : x < ⌊x⌋₊ + 1 := Nat.lt_floor_add_one x
  unfold nearest
  rw [abs_le]
  split_ifs with hbelow habove
  · constructor <;> linarith
  · push_cast
    constructor <;> linarith
  · have hhalf : x = ⌊x⌋₊ + 1 / 2 := by linarith
    rcases Nat.mod_two_eq_zero_or_one ⌊x⌋₊ with heven | hodd
    · rw [heven, Nat.add_zero]
      constructor <;> linarith
    · rw [hodd]
      push_cast
      constructor <;> linarith

theorem le_nearest {n : Nat} (h : (n : ℚ) ≤ x) : n ≤ nearest x :=
  (Nat.le_floor h).trans (floor_le_nearest x)

theorem nearest_le {n : Nat} (hx : 0 ≤ x) (h : x < n) : nearest x ≤ n := by
  have hfloor : ⌊x⌋₊ < n := (Nat.floor_lt hx).mpr h
  exact (nearest_le_floor_add_one x).trans hfloor

end Nearest

/-! ## The nearest number of 53 digits -/

/-- The exponent of the last of the 53 binary digits that a number starts with. -/
def lastPlace (q : ℚ) : Int :=
  Int.log 2 q - 52

def rounded (q : ℚ) : ℚ :=
  nearest (q / 2 ^ lastPlace q) * 2 ^ lastPlace q

theorem rounded_zero : rounded 0 = 0 := by
  simp [rounded, nearest]

section Rounded

variable {q : ℚ}

theorem two_zpow_pos (k : Int) : (0 : ℚ) < 2 ^ k :=
  zpow_pos (by norm_num) k

theorem log_eq_iff (hq : 0 < q) {k : Int} :
    Int.log 2 q = k ↔ (2 : ℚ) ^ k ≤ q ∧ q < 2 ^ (k + 1) := by
  have hle := Int.zpow_le_iff_le_log (R := ℚ) (b := 2) (by norm_num) (x := k) hq
  have hlt := Int.lt_zpow_iff_log_lt (R := ℚ) (b := 2) (by norm_num) (x := k + 1) hq
  rw [Nat.cast_ofNat] at hle hlt
  rw [hle, hlt]
  omega

theorem lastPlace_bounds (hq : 0 < q) :
    (2 : ℚ) ^ 52 ≤ q / 2 ^ lastPlace q ∧ q / 2 ^ lastPlace q < 2 ^ 53 := by
  obtain ⟨hlow, hhigh⟩ := (log_eq_iff hq).mp rfl
  have hpos := two_zpow_pos (lastPlace q)
  have hsplit : ∀ n : Nat, (2 : ℚ) ^ n * 2 ^ lastPlace q = 2 ^ (n + Int.log 2 q - 52) := by
    intro n
    rw [← zpow_natCast, ← zpow_add₀ (by norm_num)]
    congr 1
    unfold lastPlace
    omega
  constructor
  · rw [le_div_iff₀ hpos, hsplit, show ((52 : Nat) : Int) + Int.log 2 q - 52 = Int.log 2 q by omega]
    exact hlow
  · rw [div_lt_iff₀ hpos, hsplit,
      show ((53 : Nat) : Int) + Int.log 2 q - 52 = Int.log 2 q + 1 by omega]
    exact hhigh

/-- Rounding changes a number by half a step of its last digit at most. -/
theorem abs_rounded_sub_le (hq : 0 < q) : |rounded q - q| ≤ q / 2 ^ 53 := by
  have hpos := two_zpow_pos (lastPlace q)
  obtain ⟨hlow, -⟩ := lastPlace_bounds hq
  have hnearest := abs_nearest_sub_le (div_pos hq hpos).le
  calc |rounded q - q|
      = |(nearest (q / 2 ^ lastPlace q) : ℚ) - q / 2 ^ lastPlace q| * 2 ^ lastPlace q := by
        rw [← abs_of_pos hpos, ← abs_mul, abs_of_pos hpos, sub_mul, div_mul_cancel₀ _ hpos.ne']
        rfl
    _ ≤ 1 / 2 * 2 ^ lastPlace q := by gcongr
    _ ≤ q / 2 ^ 53 := by
        rw [le_div_iff₀ hpos] at hlow
        rw [le_div_iff₀ (by norm_num)]
        linarith

theorem rounded_of_eq {n : Nat} {k : Int} (hn : 0 < n) (hlt : n < 2 ^ 53) (hq : q = n * 2 ^ k) :
    rounded q = q := by
  have hpos := two_zpow_pos (lastPlace q)
  have hqpos : 0 < q := by
    rw [hq]
    exact mul_pos (by exact_mod_cast hn) (two_zpow_pos k)
  obtain ⟨hlow, -⟩ := lastPlace_bounds hqpos
  -- the last of 53 places is no higher than the place of the factor
  have hplace : lastPlace q ≤ k := by
    by_contra hover
    have hle : (2 : ℚ) ^ (k + 1) ≤ 2 ^ lastPlace q := zpow_le_zpow_right₀ (by norm_num) (by omega)
    have hnlt : (n : ℚ) < 2 ^ 53 := by exact_mod_cast hlt
    have hk := two_zpow_pos k
    rw [le_div_iff₀ hpos] at hlow
    have hover : q < 2 ^ 52 * 2 ^ lastPlace q :=
      calc q = n * 2 ^ k := hq
        _ < 2 ^ 53 * 2 ^ k := mul_lt_mul_of_pos_right hnlt hk
        _ = 2 ^ 52 * 2 ^ (k + 1) := by
            rw [zpow_add_one₀ (by norm_num)]
            ring
        _ ≤ 2 ^ 52 * 2 ^ lastPlace q := by gcongr
    exact absurd hlow hover.not_ge
  have hnat : q / 2 ^ lastPlace q = (n * 2 ^ (k - lastPlace q).toNat : Nat) := by
    generalize lastPlace q = place at hplace
    rw [hq, mul_div_assoc, ← zpow_sub₀ (by norm_num)]
    push_cast
    rw [← zpow_natCast, Int.toNat_of_nonneg (by omega)]
  unfold rounded
  rw [hnat, nearest_natCast, ← hnat, div_mul_cancel₀ _ hpos.ne']

end Rounded

/-! ## The bits that are left over -/

namespace FloatOrder

open Float.Model Float.Model.UnpackedFloat

/-- A number cut off at the point, and what is known of the rest. -/
def cutOff (x : ℚ) : ExtendedMantissa :=
  ⟨⌊x⌋₊, decide (1 / 2 ≤ x - ⌊x⌋₊), decide (x - ⌊x⌋₊ ≠ 0 ∧ x - ⌊x⌋₊ ≠ 1 / 2)⟩

theorem cutOff_natCast (n : Nat) : cutOff n = ⟨n, false, false⟩ := by
  simp [cutOff]

theorem cutOff_div {a b : Nat} (hb : 0 < b) :
    cutOff (a / b) = .ofMantissaAndAccuracy (a / b) (accuracyOfFraction (a % b) b) := by
  have hbpos : (0 : ℚ) < b := by exact_mod_cast hb
  have hrest : (a / b : ℚ) - (a / b : Nat) = (a % b : Nat) / b := by
    have hsum : (b * (a / b : Nat) + (a % b : Nat) : ℚ) = a := by
      exact_mod_cast Nat.div_add_mod a b
    rw [eq_div_iff hbpos.ne', sub_mul, div_mul_cancel₀ _ hbpos.ne']
    linarith
  have hhalf : (1 / 2 : ℚ) ≤ (a % b : Nat) / b ↔ b ≤ 2 * (a % b) := by
    rw [le_div_iff₀ hbpos, div_mul_eq_mul_div, one_mul, div_le_iff₀ (by norm_num), mul_comm]
    exact_mod_cast Iff.rfl
  have htie : ((a % b : Nat) / b : ℚ) = 1 / 2 ↔ 2 * (a % b) = b := by
    rw [div_eq_div_iff hbpos.ne' (by norm_num), one_mul, mul_comm]
    exact_mod_cast Iff.rfl
  have hzero : ((a % b : Nat) / b : ℚ) = 0 ↔ a % b = 0 := by
    rw [div_eq_zero_iff, or_iff_left hbpos.ne']
    exact_mod_cast Iff.rfl
  unfold cutOff accuracyOfFraction
  rw [Nat.floor_div_eq_div, hrest]
  simp only [ne_eq, hhalf, htie, hzero]
  by_cases hexact : a % b = 0
  · simp [hexact, ExtendedMantissa.ofMantissaAndAccuracy, hb.ne']
  · rw [if_neg hexact]
    rcases Nat.lt_trichotomy (2 * (a % b)) b with hlt | heq | hgt
    · rw [Nat.compare_eq_lt.mpr hlt]
      simp [ExtendedMantissa.ofMantissaAndAccuracy, hexact, hlt, hlt.ne]
    · rw [Nat.compare_eq_eq.mpr heq]
      simp [ExtendedMantissa.ofMantissaAndAccuracy, heq]
    · rw [Nat.compare_eq_gt.mpr hgt]
      simp [ExtendedMantissa.ofMantissaAndAccuracy, hexact, hgt.le, hgt.ne']

/-- With one digit less, what was left over is only known to be there. -/
theorem shiftRightOne_cutOff {x : ℚ} (hx : 0 ≤ x) :
    (cutOff x).shiftRightOne = cutOff (x / 2) := by
  have hhalf : ⌊x / 2⌋₊ = ⌊x⌋₊ / 2 := Nat.floor_div_ofNat x 2
  obtain ⟨rest, hrest⟩ : ∃ rest, rest = x - ⌊x⌋₊ := ⟨_, rfl⟩
  have hnonneg : 0 ≤ rest := hrest ▸ sub_nonneg.mpr (Nat.floor_le hx)
  have hlt : rest < 1 := by linarith [Nat.lt_floor_add_one x]
  have hsticky : (decide (1 / 2 ≤ rest) || decide (rest ≠ 0 ∧ rest ≠ 1 / 2)) =
      decide (rest ≠ 0) := by
    rw [← Bool.decide_or, decide_eq_decide]
    constructor
    · rintro (hle | ⟨hne, -⟩)
      · linarith
      · exact hne
    · intro hne
      by_cases htie : rest = 1 / 2
      · exact .inl htie.ge
      · exact .inr ⟨hne, htie⟩
  unfold cutOff ExtendedMantissa.shiftRightOne
  rw [hhalf, ← hrest]
  dsimp only
  rw [hsticky]
  have hsum : (2 * (⌊x⌋₊ / 2 : Nat) + (⌊x⌋₊ % 2 : Nat) : ℚ) = ⌊x⌋₊ := by
    exact_mod_cast Nat.div_add_mod ⌊x⌋₊ 2
  rcases Nat.mod_two_eq_zero_or_one ⌊x⌋₊ with heven | hodd
  · have hshifted : x / 2 - (⌊x⌋₊ / 2 : Nat) = rest / 2 := by
      rw [heven, Nat.cast_zero] at hsum
      linarith
    have hbelow : ¬ 1 / 2 ≤ rest / 2 := by linarith
    have hnonzero : rest / 2 ≠ 0 ∧ rest / 2 ≠ 1 / 2 ↔ rest ≠ 0 := by
      constructor
      · rintro ⟨hne, -⟩ rfl
        norm_num at hne
      · intro hne
        exact ⟨div_ne_zero hne (by norm_num), by linarith⟩
    rw [hshifted, heven, decide_eq_false hbelow, decide_eq_decide.mpr hnonzero]
    rfl
  · have hshifted : x / 2 - (⌊x⌋₊ / 2 : Nat) = 1 / 2 + rest / 2 := by
      rw [hodd, Nat.cast_one] at hsum
      linarith
    have habove : 1 / 2 ≤ 1 / 2 + rest / 2 := by linarith
    have hnonzero : 1 / 2 + rest / 2 ≠ 0 ∧ 1 / 2 + rest / 2 ≠ 1 / 2 ↔ rest ≠ 0 := by
      constructor
      · rintro ⟨-, hne⟩ rfl
        norm_num at hne
      · intro hne
        exact ⟨by linarith, fun heq => hne (by linarith)⟩
    rw [hshifted, hodd, decide_eq_true habove, decide_eq_decide.mpr hnonzero]
    rfl

theorem shiftRight_cutOff {x : ℚ} (hx : 0 ≤ x) (n : Nat) :
    cutOff x >>> n = cutOff (x / 2 ^ n) := by
  induction n with
  | zero =>
      rw [pow_zero, div_one]
      rfl
  | succ n ih =>
      change (cutOff x >>> n).shiftRightOne = _
      rw [ih, shiftRightOne_cutOff (div_nonneg hx (by positivity)), pow_succ, div_div]

theorem roundedMantissa_cutOff (x : ℚ) : (cutOff x).roundedMantissa = nearest x := by
  unfold cutOff ExtendedMantissa.roundedMantissa nearest
  obtain ⟨rest, hrest⟩ : ∃ rest, rest = x - ⌊x⌋₊ := ⟨_, rfl⟩
  rw [← hrest]
  rcases lt_trichotomy rest (1 / 2) with hlt | heq | hgt
  · rw [if_pos hlt, decide_eq_false hlt.not_ge]
    cases decide (rest ≠ 0 ∧ rest ≠ 1 / 2) with
    | false => rfl
    | true => rfl
  · simp [heq, ExtendedMantissa.accuracy, Accuracy.roundToNearestEven]
  · have hne : rest ≠ 0 := by linarith
    rw [if_neg hgt.not_gt, if_pos hgt, decide_eq_true hgt.le, decide_eq_true ⟨hne, hgt.ne'⟩]
    rfl

/-! ## Rounding the parts of a float -/

theorem log_mul_two_zpow {x : ℚ} (hx : 1 ≤ x) (e : Int) :
    Int.log 2 (x * 2 ^ e) = ⌊x⌋₊.log2 + e := by
  have hfloor : (⌊x⌋₊ : ℚ) ≤ x := Nat.floor_le (by linarith)
  have hne : ⌊x⌋₊ ≠ 0 := (Nat.floor_pos.mpr hx).ne'
  have hpos := two_zpow_pos e
  rw [log_eq_iff (mul_pos (by linarith) hpos), add_right_comm, zpow_add₀ (by norm_num),
    zpow_add₀ (by norm_num)]
  constructor
  · have hlow : ((2 ^ ⌊x⌋₊.log2 : Nat) : ℚ) ≤ x :=
      le_trans (by exact_mod_cast Nat.log2_self_le hne) hfloor
    rw [zpow_natCast]
    push_cast at hlow
    gcongr
  · have hhigh : x < ((2 ^ (⌊x⌋₊.log2 + 1) : Nat) : ℚ) :=
      (Nat.floor_lt (by linarith)).mp Nat.lt_log2_self
    rw [← Nat.cast_one, ← Nat.cast_add, zpow_natCast]
    push_cast at hhigh
    gcongr

/-- The digits after the 53rd one are cut off. -/
theorem shiftToTargetExponent_cutOff {x : ℚ} (hx : 2 ^ 52 ≤ x) {e : Int} {accuracy : Accuracy}
    (haccuracy : .ofMantissaAndAccuracy ⌊x⌋₊ accuracy = cutOff x)
    (hlow : -1074 ≤ lastPlace (x * 2 ^ e)) :
    shiftToTargetExponent Format.binary64 ⌊x⌋₊ e accuracy =
      (cutOff (x * 2 ^ e / 2 ^ lastPlace (x * 2 ^ e)), lastPlace (x * 2 ^ e)) := by
  have hfloor : 2 ^ 52 ≤ ⌊x⌋₊ := Nat.le_floor (by exact_mod_cast hx)
  have hlog : 52 ≤ ⌊x⌋₊.log2 := (Nat.le_log2 (by omega)).mpr hfloor
  have hplace : lastPlace (x * 2 ^ e) = ⌊x⌋₊.log2 + e - 52 := by
    rw [lastPlace, log_mul_two_zpow (by linarith)]
  generalize lastPlace (x * 2 ^ e) = place at hlow hplace ⊢
  obtain ⟨shift, hshift⟩ : ∃ shift, (Format.binary64.targetExponent
    (totalExponent ⌊x⌋₊ e) - e).toNat = shift := ⟨_, rfl⟩
  have hexponent : e + shift = place := by
    rw [← hshift, targetExponent_eq]
    omega
  have hcut : x / 2 ^ shift = x * 2 ^ e / 2 ^ place := by
    rw [← hexponent, zpow_add₀ (by norm_num), zpow_natCast, mul_comm _ ((2 : ℚ) ^ shift),
      mul_div_mul_right _ _ (two_zpow_pos e).ne']
  unfold shiftToTargetExponent shiftToExponent
  dsimp only
  rw [hshift, haccuracy, shiftRight_cutOff (by linarith), hcut, hexponent]

theorem shiftToTargetExponent_of_lt {r : Nat} (hlow : 2 ^ 52 ≤ r) (hlt : r < 2 ^ 53) {k : Int}
    (hk : -1074 ≤ k) :
    shiftToTargetExponent Format.binary64 r k .exact = (⟨r, false, false⟩, k) := by
  have hlog : r.log2 = 52 := (Nat.log2_eq_iff (by omega)).mpr ⟨hlow, hlt⟩
  have hshift : (Format.binary64.targetExponent (totalExponent r k) - k).toNat = 0 := by
    rw [targetExponent_eq, hlog]
    omega
  unfold shiftToTargetExponent shiftToExponent
  dsimp only
  rw [hshift, Nat.cast_zero, add_zero]
  rfl

theorem shiftToTargetExponent_two_pow {k : Int} (hk : -1074 ≤ k) :
    shiftToTargetExponent Format.binary64 (2 ^ 53) k .exact = (⟨2 ^ 52, false, false⟩, k + 1) := by
  have hlog : (2 ^ 53).log2 = 53 := Nat.log2_two_pow
  have hshift : (Format.binary64.targetExponent (totalExponent (2 ^ 53) k) - k).toNat = 1 := by
    rw [targetExponent_eq, hlog]
    omega
  unfold shiftToTargetExponent shiftToExponent
  dsimp only
  rw [hshift]
  rfl

/-- A number with at least 53 digits before the point is rounded to 53 digits. -/
theorem exists_roundWithAccuracy {x : ℚ} (hx : 2 ^ 52 ≤ x) {e : Int} {accuracy : Accuracy}
    (haccuracy : .ofMantissaAndAccuracy ⌊x⌋₊ accuracy = cutOff x)
    (hlow : -1074 ≤ lastPlace (x * 2 ^ e)) (s : Sign) :
    ∃ m k hm, roundWithAccuracy Format.binary64 s ⌊x⌋₊ e accuracy = .finite s m k hm ∧
      2 ^ 52 ≤ m ∧ m < 2 ^ 53 ∧ lastPlace (x * 2 ^ e) ≤ k ∧ k ≤ lastPlace (x * 2 ^ e) + 1 ∧
      m * 2 ^ k = rounded (x * 2 ^ e) := by
  have hpos : 0 < x := by linarith
  obtain ⟨hlower, hupper⟩ := lastPlace_bounds (mul_pos hpos (two_zpow_pos e))
  unfold roundWithAccuracy
  rw [shiftToTargetExponent_cutOff hx haccuracy hlow]
  dsimp only
  rw [roundedMantissa_cutOff]
  generalize x * 2 ^ e = q at *
  have hrlow : 2 ^ 52 ≤ nearest (q / 2 ^ lastPlace q) := le_nearest (by exact_mod_cast hlower)
  have hrhigh : nearest (q / 2 ^ lastPlace q) ≤ 2 ^ 53 :=
    nearest_le (by linarith) (by exact_mod_cast hupper)
  have hvalue : nearest (q / 2 ^ lastPlace q) * 2 ^ lastPlace q = rounded q := rfl
  generalize nearest (q / 2 ^ lastPlace q) = r at hrlow hrhigh hvalue ⊢
  rcases hrhigh.lt_or_eq with hlt | rfl
  · rw [shiftToTargetExponent_of_lt hrlow hlt hlow]
    dsimp only
    rw [dif_neg (by omega)]
    exact ⟨_, _, _, rfl, hrlow, hlt, le_rfl, by omega, hvalue⟩
  · -- the next power of two has one digit more
    rw [shiftToTargetExponent_two_pow hlow]
    dsimp only
    rw [dif_neg (by norm_num)]
    refine ⟨_, _, _, rfl, le_rfl, by norm_num, by omega, le_rfl, ?_⟩
    rw [← hvalue, zpow_add_one₀ (by norm_num)]
    push_cast
    ring

end FloatOrder

end Alerting.Numeric
