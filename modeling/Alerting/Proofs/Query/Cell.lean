import Alerting.Proofs.Json.DecimalText
import Alerting.Proofs.Json.Significand
import Alerting.Query.Cell
/-!
# Numbers as numbers and as texts

A number that is sent as a text is read through decimals, which have 28 places.  Up to fifteen
digits nothing else is lost on the way, and the number is the same as the one of the literal.  The
digits behind those places are lost before the exponent moves the point, even if it moves it far
enough to the right for them to have a place again.
-/

namespace Alerting.Json

open Numeric FloatOrder

/-! ## What a cell holds -/

section Reading

variable {x : Float} {q : ℚ} (hx : value? x = some q)

include hx

theorem toFloat_number_of_value? {n : Number} (hn : n.toFloat = x) : (number n).toFloat = x := by
  have hread : (number n).toFloat? = some x := by
    rw [← hn] at hx ⊢
    exact if_pos (isFinite_of_value? hx)
  rw [toFloat, hread, Option.getD_some]

theorem toFloat_string_of_value? {t : String} (ht : ofText? t = some x) :
    (string t).toFloat = x := by
  have hread : (string t).toFloat? = some x :=
    Option.filter_eq_some_iff.mpr ⟨ht, isFinite_of_value? hx⟩
  rw [toFloat, hread, Option.getD_some]

end Reading

/-! ## Values of literals -/

section Literal

variable {t : String} {lit : Numeral} {n : Number} (hlt : lit.coefficient < 10 ^ 15)

include hlt

theorem value?_toFloat_number (hn : lit.value? = some n) (hlow : -28 ≤ lit.power)
    (hhigh : lit.power ≤ 22) :
    value? (number n).toFloat = some (signedScaled lit.negative lit.coefficient lit.power) := by
  obtain ⟨x, hx, hscaled⟩ := Numeral.exists_toFloat_of_value? hn hlt hlow hhigh
  have hvalue := hscaled.value?_signed lit.negative
  rwa [toFloat_number_of_value? hvalue hx]

variable (ht : Numeral.scan t.toList = .ok (lit, []))

include ht

theorem value?_toFloat_string (hplaces : lit.places ≤ Decimal.maxPlaces) (hlow : -28 ≤ lit.power)
    (hhigh : lit.power ≤ 22) :
    value? (string t).toFloat = some (signedScaled lit.negative lit.coefficient lit.power) := by
  obtain ⟨x, hx, hvalue⟩ :=
    exists_ofText?_of_spells (Numeral.spells_of_scan ht) hplaces hlt hlow hhigh
  rwa [toFloat_string_of_value? hvalue hx]

/-- Of the digits only those that are kept make the value. -/
theorem value?_toFloat_string_of_exponent_le (hexponent : lit.exponent.getD 0 ≤ Decimal.maxPlaces)
    (hlow : -28 ≤ lit.keptPower) (hhigh : lit.keptPower ≤ 22) :
    value? (string t).toFloat =
      some (signedScaled lit.negative lit.keptCoefficient lit.keptPower) := by
  have hkept : lit.keptCoefficient < 10 ^ 15 := lit.keptCoefficient_le.trans_lt hlt
  obtain ⟨x, hx, hvalue⟩ :=
    exists_ofText?_of_exponent_le (Numeral.spells_of_scan ht) hexponent hkept hlow hhigh
  rwa [toFloat_string_of_value? hvalue hx]

end Literal

/-- What is kept has the value of the literal exactly if nothing is lost. -/
theorem scaledValue_keptCoefficient_eq_iff {lit : Numeral} (hlt : lit.coefficient < 10 ^ 15)
    (hlow : -22 ≤ lit.power) :
    scaledValue lit.keptCoefficient lit.keptPower = scaledValue lit.coefficient lit.power ↔
      lit.keptUnit ∣ lit.coefficient := by
  have hraised : lit.keptPower = (lit.places - Decimal.maxPlaces : Nat) + lit.power := by
    unfold Numeral.keptPower Numeral.keptPlaces Numeral.power
    omega
  have hunit : (lit.keptCoefficient : ℚ) * 10 ^ lit.keptPower =
      (lit.keptCoefficient * lit.keptUnit : Nat) * 10 ^ lit.power := by
    rw [hraised, zpow_add₀ (by norm_num), zpow_natCast, Numeral.keptUnit]
    push_cast
    ring
  have hsmall : lit.keptCoefficient * lit.keptUnit + lit.coefficient < 2 ^ 53 := by
    have hle := lit.keptCoefficient_mul_le
    omega
  rw [scaledValue_eq_rounded _ (show -22 ≤ lit.keptPower by omega), scaledValue_eq_rounded _ hlow,
    hunit, rounded_mul_inj hsmall (by positivity), lit.keptCoefficient_mul_eq_iff]

section Whole

variable {t : String} {lit : Numeral} (ht : Numeral.scan t.toList = .ok (lit, []))
  (hfraction : lit.fraction = none) (hexponent : lit.exponent = none)
  (hlt : lit.coefficient < 2 ^ 64)

include hlt in
theorem isScaled_coefficient : IsScaled (Float.ofNat lit.coefficient) lit.coefficient 0 := by
  have hbig : lit.coefficient * 10 ^ (0 : Int).toNat < 2 ^ 200 := by
    rw [Int.toNat_zero, Nat.pow_zero, Nat.mul_one]
    exact hlt.trans (by norm_num)
  have hofNat := isScaled_ofNat le_rfl hbig
  rwa [Int.toNat_zero, Nat.pow_zero, Nat.mul_one] at hofNat

include ht hfraction hexponent hlt

/-- The decimal of a whole number is exact, so that any 64 bits are read. -/
theorem value?_toFloat_string_of_whole :
    value? (string t).toFloat = some (signedScaled lit.negative lit.coefficient 0) := by
  have hplaces : lit.places = 0 := by
    rw [Numeral.places, hfraction]
    rfl
  have hpower : lit.keptPower = 0 := by
    rw [Numeral.keptPower, Numeral.keptPlaces, hplaces, hexponent]
    rfl
  have hstring :=
    (isScaled_coefficient hlt).value?_signed (lit.negative && lit.coefficient ≠ 0)
  have hkept := Numeral.kept_of_places_le (hplaces.le.trans (Nat.zero_le _))
  have htext : ofText? t =
      some (signed (lit.negative && lit.coefficient ≠ 0) (Float.ofNat lit.coefficient)) := by
    rw [ofText?_of_exponent_le_places (Numeral.spells_of_scan ht)
      (hkept.2 ▸ hlt.trans (by decide)) (by rw [hexponent]; rfl)
      (by rw [hexponent]; exact Int.natCast_nonneg _), hkept.2, hpower, ← Decimal.toFloat_whole,
      ← Decimal.toFloat_eq_signed]
    rfl
  rw [toFloat_string_of_value? hstring htext, hstring, signedScaled_and]

end Whole

theorem toFloat_string_beq_of_whole {t : String} {lit : Numeral} {n : Number}
    (ht : Numeral.scan t.toList = .ok (lit, [])) (hn : lit.value? = some n)
    (hfraction : lit.fraction = none) (hexponent : lit.exponent = none)
    (hlt : lit.coefficient < 2 ^ 64) : ((string t).toFloat == (number n).toFloat) = true := by
  have hread := Numeral.toFloat_of_value?_whole (Nat.le_of_lt_succ hlt) hfraction hexponent hn
  have hnumber := (isScaled_coefficient hlt).value?_signed lit.negative
  rw [toFloat_number_of_value? hnumber hread,
    beq_iff_of_value? (value?_toFloat_string_of_whole ht hfraction hexponent hlt) hnumber]

/-! ## Cells that agree -/

/-- A literal is read as the same number whether it comes as a number or as a text if it is a whole
number of 64 bits, or has up to fifteen digits, 28 places and a moderate power of ten.  With more
places it is so, up to an exponent of 28, exactly if there are zeros only behind the 28th.  For the
text is read as the literal rounded to 28 places, whose point is then moved by the exponent. -/
theorem toFloat_string_beq_toFloat_number {t : String} {lit : Numeral} {n : Number}
    (ht : Numeral.scan t.toList = .ok (lit, [])) (hn : lit.value? = some n) :
    (lit.fraction = none → lit.exponent = none → lit.coefficient < 2 ^ 64 →
      ((string t).toFloat == (number n).toFloat) = true) ∧
    (lit.coefficient < 10 ^ 15 → lit.places ≤ Decimal.maxPlaces → -28 ≤ lit.power →
      lit.power ≤ 22 → ((string t).toFloat == (number n).toFloat) = true) ∧
    (lit.coefficient < 10 ^ 15 → lit.exponent.getD 0 ≤ Decimal.maxPlaces → -22 ≤ lit.power →
      lit.power ≤ 22 →
        (((string t).toFloat == (number n).toFloat) = true ↔
          10 ^ (lit.places - Decimal.maxPlaces) ∣ lit.coefficient)) ∧
    (lit.keptCoefficient < Decimal.limit → 0 ≤ lit.exponent.getD 0 →
      lit.exponent.getD 0 ≤ lit.keptPlaces →
        ofText? t = some (Decimal.toFloat
          ⟨lit.negative && lit.keptCoefficient ≠ 0, lit.keptCoefficient,
            (-lit.keptPower).toNat⟩)) := by
  have hspells := Numeral.spells_of_scan ht
  refine ⟨toFloat_string_beq_of_whole ht hn, ?_, ?_, ofText?_of_exponent_le_places hspells⟩
  · intro hlt hplaces hlow hhigh
    rw [beq_iff_of_value? (value?_toFloat_string hlt ht hplaces hlow hhigh)
      (value?_toFloat_number hlt hn hlow hhigh)]
  · intro hlt hexponent hlow hhigh
    have hpower : -28 ≤ lit.keptPower ∧ lit.keptPower ≤ 22 := by
      have hmax : Decimal.maxPlaces = 28 := rfl
      unfold Numeral.power at hlow hhigh
      unfold Numeral.keptPower Numeral.keptPlaces
      omega
    have hstring := value?_toFloat_string_of_exponent_le hlt ht hexponent hpower.1 hpower.2
    have hnumber := value?_toFloat_number hlt hn (by omega) hhigh
    rw [beq_iff_of_value? hstring hnumber, signedScaled_inj]
    exact scaledValue_keptCoefficient_eq_iff hlt hlow

/-- The second digit of fifteen has no place before the exponent gives it one, and rounds the first
up: two units are read where the number has one and a half. -/
theorem toFloat_string_beq_toFloat_number_fifteen :
    let t := "0.00000000000000000000000000015e9"
    let lit : Numeral := ⟨false, [0], some (List.replicate 27 0 ++ [1, 5]), some 9⟩
    Numeral.scan t.toList = .ok (lit, []) ∧ lit.value? = some (.float 15e-20) ∧
      ((string t).toFloat == (number (.float 15e-20)).toFloat) = false ∧
      ofText? t = some (Decimal.toFloat ⟨false, 2, 19⟩) := by
  intro t lit
  have hscan : Numeral.scan t.toList = .ok (lit, []) := by
    decide +kernel
  have hvalue : lit.value? = some (.float 15e-20) := by
    decide +kernel
  obtain ⟨-, -, hiff, hread⟩ := toFloat_string_beq_toFloat_number hscan hvalue
  have hkept : lit.keptCoefficient = 2 := by
    decide +kernel
  have hpower : lit.keptPower = -19 := by
    decide +kernel
  rw [hkept, hpower] at hread
  refine ⟨hscan, hvalue, ?_, hread (by decide) (by decide) (by decide)⟩
  have hlost : ¬ 10 ^ (lit.places - Decimal.maxPlaces) ∣ lit.coefficient := by
    decide
  exact Bool.eq_false_iff.mpr
    ((hiff (by decide) (by decide) (by decide) (by decide)).not.mpr hlost)

/-- The only digit that is not zero has no place before the exponent gives it one. -/
theorem not_forall_toFloat_string_beq_toFloat_number :
    ¬ ∀ (t : String) (lit : Numeral) (n : Number), Numeral.scan t.toList = .ok (lit, []) →
      lit.value? = some n → ((string t).toFloat == (number n).toFloat) = true := by
  intro h
  have hread := h "0.00000000000000000000000000001e5"
    ⟨false, [0], some (List.replicate 28 0 ++ [1]), some 5⟩ (.float (1 / 1e24))
    (by decide +kernel) (by decide +kernel)
  revert hread
  decide +kernel

-- sixteen digits can differ in the last bit, as the coefficient itself need not be a float
example : Numeral.value? ⟨false, [9, 3, 3, 2, 9, 4, 9, 8, 9, 4], some [9, 3, 9, 3, 4, 7], none⟩ ≠
    (ofText? "9332949894.939347").map .float := by
  decide +kernel

end Alerting.Json
