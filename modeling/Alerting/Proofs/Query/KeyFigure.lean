import Alerting.Proofs.Numeric.Grouped
import Alerting.Proofs.Numeric.Nearest
import Alerting.Proofs.Query.Cell
/-!
# Key figures as cells

A key figure is shown as the integer of 64 bits that it rounds to.  As a cell its text is that
integer again, as long as floats have all integers.
-/

namespace Alerting

namespace Numeric

open FloatOrder

/-! ## Rounding -/

/-- Whether a float rounds to an integer of 64 bits.  It is the integer nearest to the value, where
a half goes away from zero, or else the bound that this integer is beyond.  The infinities and NaN
have no value and round to nothing. -/
def RoundsTo (x : Float) (n : Int) : Prop :=
  ∃ q k, value? x = some q ∧ IsNearest q k ∧ n = max (-2 ^ 63) (min (2 ^ 63 - 1) k)

variable {x : Float} {m n : Int}

theorem roundsTo_of_ofFloat? {b : Binary} (h : Binary.ofFloat? x = some b) :
    RoundsTo x (roundToInt64 b) := by
  refine ⟨b.toRat, b.round, ?_, b.isNearest_round, rfl⟩
  rw [value?, h, Option.map_some]

theorem groupedFigure_eq (h : RoundsTo x n) : groupedFigure x = groupedInt n := by
  obtain ⟨q, k, hvalue, hnearest, rfl⟩ := h
  obtain ⟨b, hparts, rfl⟩ := Option.map_eq_some_iff.mp hvalue
  rw [groupedFigure, hparts, hnearest.unique b.isNearest_round]
  rfl

theorem RoundsTo.unique (hm : RoundsTo x m) (hn : RoundsTo x n) : m = n :=
  groupedInt_injective ((groupedFigure_eq hm).symm.trans (groupedFigure_eq hn))

theorem existsUnique_roundsTo (hx : x.isFinite = true) : ∃! n, RoundsTo x n := by
  obtain ⟨narrow, hparts⟩ := ofFloat?_of_isFinite hx
  have hround := roundsTo_of_ofFloat? hparts
  exact ⟨_, hround, fun _ h => h.unique hround⟩

theorem groupedFigure_of_not_isFinite (hx : x.isFinite = false) : groupedFigure x = "0" := by
  have hvalue := value?_of_not_isFinite hx
  rw [value?, Option.map_eq_none_iff] at hvalue
  rw [groupedFigure, hvalue]

/-! ## Integers that are floats -/

theorem scaledValue_whole {c : Nat} (hc : c ≤ 2 ^ 53) : scaledValue c 0 = c := by
  rcases Nat.eq_zero_or_pos c with rfl | hpos
  · exact scaledValue_zero 0
  rw [scaledValue, if_pos le_rfl, Int.toNat_zero, pow_zero, mul_one]
  rcases hc.eq_or_lt with rfl | hlt
  · -- the first number of 54 binary digits is a power of two
    exact rounded_of_eq (n := 1) (k := 53) Nat.one_pos (by norm_num) (by norm_num)
  · exact rounded_natCast hpos hlt

theorem signedScaled_natAbs (hn : n.natAbs ≤ 2 ^ 53) : signedScaled (n < 0) n.natAbs 0 = n := by
  rw [signedScaled, scaledValue_whole hn]
  by_cases hneg : n < 0
  · rw [if_pos (decide_eq_true hneg), Nat.cast_natAbs, abs_of_neg hneg, Int.cast_neg, neg_neg]
  · rw [if_neg (by simpa using hneg), Nat.cast_natAbs, abs_of_nonneg (not_lt.mp hneg)]

end Numeric

namespace Json

open Numeric

variable {n : Int}

theorem Numeral.coefficient_ofInt : (Numeral.ofInt n).coefficient = n.natAbs := by
  unfold coefficient ofInt
  rw [Option.getD_none, List.append_nil, ofDigits_decimal]

theorem value?_toFloat_groupedInt (hn : n.natAbs ≤ 2 ^ 53) :
    value? (string (groupedInt n)).toFloat = some (n : ℚ) := by
  have hread : (string (groupedInt n)).toFloat? = (string n.repr).toFloat? :=
    congrArg (·.filter (·.isFinite)) (ofText?_groupedInt n)
  have hlt : (Numeral.ofInt n).coefficient < 2 ^ 64 := by
    rw [Numeral.coefficient_ofInt]
    omega
  have hvalue := value?_toFloat_string_of_whole (Numeral.scan_text_int n) rfl rfl hlt
  rw [Numeral.coefficient_ofInt] at hvalue
  rw [toFloat, hread]
  exact hvalue.trans (congrArg some (signedScaled_natAbs hn))

end Json

namespace Numeric

/-- A key figure is shown as the integer that it rounds to: its text has a sign at most, groups of
three digits from the right, and the numeral of the integer where the commas are left out.  So
different integers have different texts, and each text is read as the integer it shows if floats
have all integers up to it.  Every finite figure rounds to one integer; others are shown as zero. -/
theorem groupedFigure_shows :
    (∀ x : Float, x.isFinite = true → ∃! n, RoundsTo x n) ∧
    (∀ x : Float, x.isFinite = false → groupedFigure x = "0") ∧
    ∀ (x : Float) (n : Int), RoundsTo x n →
      IsGroupedText (groupedFigure x) ∧
      (groupedFigure x).toList.filter (· ≠ ',') = (toString n).toList ∧
      (∀ (y : Float) (m : Int), RoundsTo y m → m ≠ n → groupedFigure y ≠ groupedFigure x) ∧
      (n.natAbs ≤ 2 ^ 53 → value? (Json.string (groupedFigure x)).toFloat = some (n : ℚ)) := by
  refine ⟨fun _ => existsUnique_roundsTo, fun _ => groupedFigure_of_not_isFinite, ?_⟩
  intro x n h
  rw [groupedFigure_eq h]
  refine ⟨isGroupedText_groupedInt n, filter_groupedInt n, ?_, Json.value?_toFloat_groupedInt⟩
  intro y m h' hne heq
  rw [groupedFigure_eq h'] at heq
  exact hne (groupedInt_injective heq)

theorem groupedFigure_shows_millions :
    RoundsTo (-9876543.6) (-9876544) ∧
      value? (Json.string (groupedFigure (-9876543.6))).toFloat = some (-9876544) := by
  have hround : RoundsTo (-9876543.6) (-9876544) := by
    have hparts : Binary.ofFloat? (-9876543.6) = some ⟨true, 5302428969939763, -29, false⟩ := by
      decide +kernel
    exact roundsTo_of_ofFloat? hparts
  obtain ⟨-, -, hshows⟩ := groupedFigure_shows
  obtain ⟨-, -, -, hread⟩ := hshows _ _ hround
  exact ⟨hround, by exact_mod_cast hread (by decide)⟩

end Numeric

end Alerting
