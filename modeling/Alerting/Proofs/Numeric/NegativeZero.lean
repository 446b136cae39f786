import Alerting.Figure
import Alerting.Proofs.Numeric.FloatOrder
/-!
# Sums and the negative zero

The negative zero is as large as the positive one, but it stands below it in the order of all
floats.  Only negative zeros add up to it: opposite numbers add up to the positive zero, and a sum
that is not zero is never rounded to zero.  So a sum that starts at zero is never the negative zero
(`foldl_add_ne_negZero`), and floats other than it are ordered by their keys as they are by value
(`orderKey_eq`).
-/

namespace Alerting.Numeric.FloatOrder

open Float.Model Float.Model.UnpackedFloat

/-! ## Rounding -/

def IsRounded : UnpackedFloat → Prop
  | .finite _ m e _ => m < 2 ^ 53 ∧ -1074 ≤ e
  | _ => True

theorem isRounded_ofMagnitude (s : Sign) (m : Nat) : IsRounded (ofMagnitude s m) := by
  unfold ofMagnitude significand exponent
  split_ifs <;> simp only [IsRounded] <;> omega

theorem targetExponent_eq (m : Nat) (e : Int) :
    Format.binary64.targetExponent (totalExponent m e) = max (m.log2 + 1 + e - 53) (-1074) := rfl

theorem mantissa_shiftRight (em : ExtendedMantissa) (n : Nat) :
    (em >>> n).mantissa = em.mantissa / 2 ^ n := by
  induction n with
  | zero => exact (Nat.div_one _).symm
  | succ n ih =>
      change (em >>> n).mantissa / 2 = _
      rw [ih, Nat.div_div_eq_div_mul, Nat.pow_succ]

theorem le_roundedMantissa (em : ExtendedMantissa) : em.mantissa ≤ em.roundedMantissa := by
  obtain ⟨m, roundBit, stickyBit⟩ := em
  cases roundBit <;> cases stickyBit <;>
    simp [ExtendedMantissa.roundedMantissa, ExtendedMantissa.accuracy,
      Accuracy.roundToNearestEven]

/-- A significand keeps its leading bit when it is shifted to the exponent that it should have. -/
theorem shift_bounds {m : Nat} (hm : m ≠ 0) {e : Int} (he : -1074 ≤ e) :
    let shifted := m / 2 ^ (Format.binary64.targetExponent (totalExponent m e) - e).toNat
    shifted ≠ 0 ∧ shifted < 2 ^ 53 := by
  intro shifted
  have hlow : 2 ^ m.log2 ≤ m := Nat.log2_self_le hm
  have hhigh : m < 2 ^ (m.log2 + 1) := Nat.lt_log2_self
  have hshift : (Format.binary64.targetExponent (totalExponent m e) - e).toNat = m.log2 - 52 := by
    rw [targetExponent_eq]
    omega
  have hshifted : shifted = m / 2 ^ (m.log2 - 52) := by
    rw [← hshift]
  rw [hshifted]
  constructor
  · have hle : 2 ^ (m.log2 - 52) ≤ m := (Nat.pow_le_pow_right (by omega) (by omega)).trans hlow
    exact (Nat.div_pos hle (Nat.two_pow_pos _)).ne'
  · rw [Nat.div_lt_iff_lt_mul (Nat.two_pow_pos _), ← Nat.pow_add]
    exact hhigh.trans_le (Nat.pow_le_pow_right (by omega) (by omega))

/-- What is not zero is not rounded to zero where the exponent is that of some float. -/
theorem exists_round (s : Sign) {m : Nat} (hm : m ≠ 0) {e : Int} (he : -1074 ≤ e) :
    ∃ n k hn, UnpackedFloat.round Format.binary64 s m e = .finite s n k hn ∧
      IsRounded (.finite s n k hn) := by
  unfold UnpackedFloat.round decreaseExponent
  dsimp only
  have hleft : -1074 ≤ Format.binary64.targetExponent (totalExponent m e) := by
    rw [targetExponent_eq]
    omega
  -- the significand is made longer before it is made shorter
  generalize hk : e - ((e - Format.binary64.targetExponent (totalExponent m e)).toNat : Int) = k
  have hk : -1074 ≤ k := by omega
  generalize hn : m <<< (e - Format.binary64.targetExponent (totalExponent m e)).toNat = n
  have hn : n ≠ 0 := by
    rw [← hn, Nat.shiftLeft_eq]
    exact Nat.mul_ne_zero hm (Nat.two_pow_pos _).ne'
  unfold roundWithAccuracy shiftToTargetExponent shiftToExponent
  dsimp only [ExtendedMantissa.ofMantissaAndAccuracy]
  obtain ⟨hfirst, -⟩ := shift_bounds hn hk
  generalize (Format.binary64.targetExponent (totalExponent n k) - k).toNat = shift at hfirst ⊢
  generalize hr : ExtendedMantissa.roundedMantissa _ = r
  have hr : r ≠ 0 := by
    have hle := le_roundedMantissa ((⟨n, false, false⟩ : ExtendedMantissa) >>> shift)
    rw [hr, mantissa_shiftRight] at hle
    exact ((Nat.pos_of_ne_zero hfirst).trans_le hle).ne'
  obtain ⟨hlast, hlt⟩ := shift_bounds hr (show -1074 ≤ k + shift by omega)
  generalize (Format.binary64.targetExponent (totalExponent r (k + shift)) -
    (k + shift)).toNat = shift' at hlast hlt ⊢
  have hmantissa : ((⟨r, false, false⟩ : ExtendedMantissa) >>> shift').mantissa = r / 2 ^ shift' :=
    mantissa_shiftRight _ _
  rw [dif_neg (hmantissa ▸ hlast)]
  refine ⟨_, _, _, rfl, ?_, by omega⟩
  rw [hmantissa]
  exact hlt

/-! ## The negative zero -/

theorem pack_ne_negZero {u : UnpackedFloat} (hu : IsRounded u) (hne : u ≠ .zero .negative) :
    UnpackedFloat.pack Format.binary64 u ≠ packedZero Format.binary64 .negative := by
  cases u with
  | notANumber => decide
  | infinity s => cases s <;> decide
  | zero s =>
      cases s with
      | negative => exact absurd rfl hne
      | positive => decide
  | finite s m e hm =>
      obtain ⟨hlt, he⟩ := hu
      intro heq
      have hexponent := congrArg unpackExponent heq
      have hmantissa := congrArg unpackMantissa heq
      unfold UnpackedFloat.pack packedZero at hexponent hmantissa
      dsimp only at hexponent hmantissa
      rw [unpackExponent_packComponents] at hexponent
      rw [unpackMantissa_packComponents] at hmantissa
      split_ifs at hexponent hmantissa with hbig hnormal
      · simp [packedInfinity] at hexponent
      · rw [unpackExponent_packComponents, ← BitVec.toNat_inj] at hexponent
        have hbias : (Format.binary64.exponentBias : Int) = 1023 := rfl
        simp [hbias] at hexponent hbig
        omega
      · rw [unpackMantissa_packComponents, ← BitVec.toNat_inj] at hmantissa
        have hlog : m.log2 < 53 := (Nat.log2_lt hm.ne').mpr hlt
        have hsmall : m < 2 ^ 52 := (Nat.log2_lt hm.ne').mp (by
          have hne : m.log2 + 1 ≠ 53 := hnormal
          omega)
        simp at hmantissa
        omega

/-- A float that is not the negative zero stays so when another is added. -/
theorem isRounded_addUnpacked {u v : UnpackedFloat} (hu : IsRounded u) (hv : IsRounded v)
    (hne : u ≠ .zero .negative) :
    IsRounded (UnpackedFloat.add Format.binary64 u v) ∧
      UnpackedFloat.add Format.binary64 u v ≠ .zero .negative := by
  cases u with
  | notANumber => exact ⟨trivial, nofun⟩
  | infinity s =>
      cases v with
      | infinity t => cases s <;> cases t <;> exact ⟨trivial, nofun⟩
      | _ => exact ⟨trivial, nofun⟩
  | zero s =>
      cases s with
      | negative => exact absurd rfl hne
      | positive =>
          cases v with
          | zero t => cases t <;> exact ⟨trivial, nofun⟩
          | finite t n k hn => exact ⟨hv, nofun⟩
          | _ => exact ⟨trivial, nofun⟩
  | finite s m e hm =>
      cases v with
      | zero t => exact ⟨hu, nofun⟩
      | finite t n k hn =>
          have hround : ∀ sign, ∀ sum : Nat, sum ≠ 0 →
              IsRounded (UnpackedFloat.round Format.binary64 sign sum (min e k)) ∧
                UnpackedFloat.round Format.binary64 sign sum (min e k) ≠ .zero .negative := by
            intro sign sum hsum
            obtain ⟨_, _, _, hfinite, hrounded⟩ := exists_round sign hsum (le_min hu.2 hv.2)
            rw [hfinite]
            exact ⟨hrounded, nofun⟩
          unfold UnpackedFloat.add UnpackedFloat.normalize
          dsimp only
          split
          · next hlt =>
            rw [Int.compare_eq_lt] at hlt
            exact hround _ _ (by omega)
          · exact ⟨trivial, nofun⟩
          · next hgt =>
            rw [Int.compare_eq_gt] at hgt
            exact hround _ _ (by omega)
      | _ => exact ⟨trivial, nofun⟩

theorem toBits_injective : Function.Injective Float.toBits := by
  rintro ⟨⟨bits, _⟩⟩ ⟨⟨bits', _⟩⟩ (h : bits = bits')
  cases h
  rfl

theorem eq_negZero_iff {x : Float} : x = -0.0 ↔ x.toBits.toNat = 2 ^ 63 := by
  have hbits : (-0.0 : Float).toBits.toNat = 2 ^ 63 := by decide
  rw [← hbits, UInt64.toNat_inj, toBits_injective.eq_iff]

theorem unpack_ne_negZero {x : Float} (hx : x ≠ -0.0) :
    x.toModel.unpack ≠ .zero .negative := by
  rw [Ne, eq_negZero_iff] at hx
  rw [unpack_eq]
  unfold ofMagnitude
  split_ifs with hnan hinfinity hzero
  · exact nofun
  · exact nofun
  · intro h
    have hsign : signOf x.toBits.toBitVec = .negative := UnpackedFloat.zero.inj h
    have hlt := x.toBits.toNat_lt
    unfold magnitude at hzero
    unfold signOf at hsign
    rw [UInt64.toNat_toBitVec] at hsign
    split_ifs at hsign
    omega
  · exact nofun

theorem add_ne_negZero {x : Float} (hx : x ≠ -0.0) (y : Float) : x + y ≠ -0.0 := by
  have hrounded : ∀ z : Float, IsRounded z.toModel.unpack := fun z => by
    rw [unpack_eq]
    exact isRounded_ofMagnitude _ _
  obtain ⟨hsum, hne⟩ := isRounded_addUnpacked (hrounded x) (hrounded y) (unpack_ne_negZero hx)
  have hpack := pack_ne_negZero hsum hne
  rw [Ne, eq_negZero_iff]
  intro hbits
  apply hpack
  rw [← BitVec.toNat_inj]
  exact hbits

theorem foldl_add_ne_negZero (l : List Float) {start : Float} (hstart : start ≠ -0.0) :
    l.foldl (· + ·) start ≠ -0.0 := by
  induction l generalizing start with
  | nil => exact hstart
  | cons x rest ih => exact ih (add_ne_negZero hstart x)

/-! ## Order keys -/

/-- Apart from the negative zero, a float stands where its value puts it. -/
theorem orderKey_eq {x : Float} (hx : x ≠ -0.0) :
    orderKey x = if signedMagnitude x < 0 then signedMagnitude x - 1 else signedMagnitude x := by
  rw [Ne, eq_negZero_iff] at hx
  have hlt := x.toBits.toNat_lt
  unfold orderKey signedMagnitude signOf magnitude
  simp only [UInt64.toNat_toBitVec, Nat.pow_eq]
  split_ifs <;> dsimp only [Sign.apply] at * <;> omega

end Alerting.Numeric.FloatOrder
