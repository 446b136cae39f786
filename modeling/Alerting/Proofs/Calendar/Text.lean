import Alerting.Calendar.Text
import Alerting.Proofs.Calendar.Order
import Alerting.Proofs.Text.Encoding
/-!
# Dates in the order of their texts

The text of a date in a year of four digits has its parts at fixed places, the year before the month
before the day.  So comparing such texts byte by byte compares the dates: `encode_text_lt_iff`.
-/

namespace Alerting

/-! ## Bytes in order -/

theorem append_lt_append_of_length_eq {as bs : List UInt8} (hlength : as.length = bs.length)
    (h : as < bs) (cs ds : List UInt8) : as ++ cs < bs ++ ds := by
  induction as generalizing bs with
  | nil =>
      rw [List.eq_nil_of_length_eq_zero hlength.symm] at h
      exact absurd h (List.lt_irrefl _)
  | cons a as ih =>
      cases bs with
      | nil => cases hlength
      | cons b bs =>
          rw [List.cons_append, List.cons_append, List.cons_lt_cons_iff]
          rw [List.cons_lt_cons_iff] at h
          exact h.imp_right fun ⟨hab, hlt⟩ => ⟨hab, ih (Nat.succ_injective hlength) hlt⟩

/-! ## Numbers of a fixed width -/

namespace Numeric

open Text.Utf8

/-- The last so many decimal digits of a number, as bytes. -/
def digitBytes : Nat → Nat → List UInt8
  | 0, _ => []
  | width + 1, n => digitBytes width (n / 10) ++ [UInt8.ofNat (48 + n % 10)]

theorem length_digitBytes (width n : Nat) : (digitBytes width n).length = width := by
  induction width generalizing n with
  | zero => rfl
  | succ width ih => rw [digitBytes, List.length_append, ih, List.length_singleton]

theorem digitBytes_lt {width m n : Nat} (hn : n < 10 ^ width) (h : m < n) :
    digitBytes width m < digitBytes width n := by
  induction width generalizing m n with
  | zero => omega
  | succ width ih =>
      rw [digitBytes, digitBytes]
      by_cases htens : m / 10 = n / 10
      · rw [htens]
        refine List.append_left_lt (List.cons_lt_cons_iff.mpr (.inl ?_))
        rw [UInt8.lt_iff_toNat_lt, UInt8.toNat_ofNat', UInt8.toNat_ofNat']
        omega
      · have hlt : m / 10 < n / 10 := by omega
        have hle : n / 10 < 10 ^ width := by
          rw [Nat.div_lt_iff_lt_mul (by decide), ← Nat.pow_succ]
          exact hn
        refine append_lt_append_of_length_eq ?_ (ih hle hlt) _ _
        rw [length_digitBytes, length_digitBytes]

theorem utf8EncodeChar_digitChar {n : Nat} (h : n < 10) :
    String.utf8EncodeChar n.digitChar = [UInt8.ofNat (48 + n)] := by
  have hall : ∀ m < 10, String.utf8EncodeChar (Nat.digitChar m) = [UInt8.ofNat (48 + m)] := by
    decide
  exact hall n h

theorem padded_succ (width n : Nat) :
    padded (width + 2) n =
      padded (width + 1) (n / 10) ++ String.ofList [(n % 10).digitChar] := by
  unfold padded
  dsimp only
  rw [← String.ofList_append]
  congr 1
  by_cases hn : n < 10
  · rw [Nat.toDigits_of_lt_base hn, Nat.div_eq_of_lt hn, Nat.mod_eq_of_lt hn,
      Nat.toDigits_of_lt_base (by decide : 0 < 10), List.length_singleton, List.length_singleton]
    exact congrArg (· ++ [n.digitChar]) List.replicate_succ'
  · have hlength : ∀ length, width + 2 - (length + 1) = width + 1 - length := by omega
    rw [Nat.toDigits_of_base_le (by decide) (Nat.le_of_not_lt hn), List.length_append,
      List.length_singleton, hlength, List.append_assoc]

theorem encode_padded {width n : Nat} (h : n < 10 ^ (width + 1)) :
    encode (padded (width + 1) n) = digitBytes (width + 1) n := by
  induction width generalizing n with
  | zero =>
      have hlt : n < 10 := h
      have hpadded : padded 1 n = String.ofList [n.digitChar] := by
        unfold padded
        rw [Nat.toDigits_of_lt_base hlt]
        rfl
      rw [hpadded, encode_ofList, List.flatMap_singleton, utf8EncodeChar_digitChar hlt, digitBytes,
        digitBytes, Nat.mod_eq_of_lt hlt, List.nil_append]
  | succ width ih =>
      have htens : n / 10 < 10 ^ (width + 1) := by
        rw [Nat.div_lt_iff_lt_mul (by decide), ← Nat.pow_succ]
        exact h
      rw [padded_succ, encode_append, ih htens, encode_ofList, List.flatMap_singleton,
        utf8EncodeChar_digitChar (Nat.mod_lt n (by decide))]
      rfl

end Numeric

/-! ## Dates -/

namespace Date

open Numeric Text.Utf8

/-- The year is written with four digits and without a sign. -/
def HasPlainYear (d : Date) : Prop :=
  0 ≤ d.year ∧ d.year ≤ 9999

theorem encode_text {d : Date} (h : d.HasPlainYear) :
    encode d.text = digitBytes 4 d.year.toNat ++ (encode "-" ++ (digitBytes 2 d.month ++
      (encode "-" ++ digitBytes 2 d.day))) := by
  have hyear : d.yearText = padded 4 d.year.toNat := by
    unfold yearText
    have hnat : d.year.natAbs = d.year.toNat := by have := h.1; omega
    rw [if_neg h.1.not_gt, if_neg h.2.not_gt, hnat]
    exact String.empty_append
  have hmonth : d.month < 10 ^ 2 := by have := d.month_mem; omega
  have hday : d.day < 10 ^ 2 := d.day_lt
  have hplain : d.year.toNat < 10 ^ 4 := by have := h.2; omega
  unfold text
  rw [hyear, encode_append, encode_append, encode_append, encode_append, encode_padded hplain,
    encode_padded hmonth, encode_padded hday]
  simp only [List.append_assoc]

/-- Comparing the texts byte by byte compares the dates. -/
theorem encode_text_lt_iff {d e : Date} (hd : d.HasPlainYear) (he : e.HasPlainYear) :
    encode d.text < encode e.text ↔ d.dayNumber < e.dayNumber := by
  have hmono : ∀ {d e : Date}, d.HasPlainYear → e.HasPlainYear → d.Precedes e →
      encode d.text < encode e.text := by
    intro d e hd he h
    rw [encode_text hd, encode_text he]
    have hyear : e.year.toNat < 10 ^ 4 := by have := he.2; omega
    have hmonth : e.month < 10 ^ 2 := by have := e.month_mem; omega
    obtain h | ⟨h, hm | ⟨hm, hday⟩⟩ := h
    · refine append_lt_append_of_length_eq ?_ (digitBytes_lt hyear (by have := hd.1; omega)) _ _
      rw [length_digitBytes, length_digitBytes]
    · rw [h]
      refine List.append_left_lt (List.append_left_lt ?_)
      refine append_lt_append_of_length_eq ?_ (digitBytes_lt hmonth hm) _ _
      rw [length_digitBytes, length_digitBytes]
    · rw [h, hm]
      refine List.append_left_lt (List.append_left_lt ?_)
      refine List.append_left_lt (List.append_left_lt ?_)
      exact digitBytes_lt e.day_lt hday
  constructor
  · intro h
    obtain hde | rfl | hed := precedes_trichotomy d e
    · exact hde.dayNumber_lt
    · exact absurd h (List.lt_irrefl _)
    · exact absurd h (List.lt_asymm (hmono he hd hed))
  · exact fun h => hmono hd he (dayNumber_lt_iff.mp h)

end Date

end Alerting
