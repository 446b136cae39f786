import Alerting.Proofs.Text.Encoding
import Mathlib.Algebra.Group.Nat.Defs
/-!
# What base 64 stands for

Letters are digits to the base 64 as bytes are digits to the base 256, and both stand for one
number.  So many letters are padded to whole groups of four, and the last of them is filled up with
zero bits, that each sequence of bytes has one text: the one that `encode` gives.
-/

namespace Alerting.Text.Base64

def alphabet : List Char :=
  "ABCDEFGHIJKLMNOPQRSTUVWXYZabcdefghijklmnopqrstuvwxyz0123456789+/".toList

def number (base : Nat) : List Nat → Nat
  | [] => 0
  | d :: ds => d * base ^ ds.length + number base ds

/-- Whether a text is the padded base 64 of bytes.  Each pad stands for two bits that the last
letter has too many. -/
def IsStandard (text : List Char) (bytes : List UInt8) : Prop :=
  ∃ (digits : List Nat) (pads : Nat),
    text = digits.map (alphabet.getD · '=') ++ List.replicate pads '=' ∧
      (∀ d ∈ digits, d < 64) ∧ pads < 3 ∧ 3 * (digits.length + pads) = 4 * (bytes.length + pads) ∧
      number 64 digits = number 256 (bytes.map UInt8.toNat) * 4 ^ pads

/-! ## Digits -/

theorem number_append (base : Nat) (ds es : List Nat) :
    number base (ds ++ es) = number base ds * base ^ es.length + number base es := by
  induction ds with
  | nil => rw [List.nil_append, number, Nat.zero_mul, Nat.zero_add]
  | cons d ds ih =>
      rw [List.cons_append, number, ih, number, List.length_append, Nat.pow_add, Nat.add_mul,
        Nat.mul_assoc, Nat.add_assoc]

theorem number_lt {base : Nat} {ds : List Nat} (h : ∀ d ∈ ds, d < base) :
    number base ds < base ^ ds.length := by
  induction ds with
  | nil => exact Nat.one_pos
  | cons d ds ih =>
      rw [List.forall_mem_cons] at h
      calc number base (d :: ds) < d * base ^ ds.length + base ^ ds.length :=
            Nat.add_lt_add_left (ih h.2) _
        _ = (d + 1) * base ^ ds.length := (Nat.succ_mul _ _).symm
        _ ≤ base * base ^ ds.length := Nat.mul_le_mul_right _ h.1
        _ = base ^ (d :: ds).length := (Nat.pow_succ').symm

/-- Of one length no two sequences of digits stand for the same number. -/
theorem eq_of_number_eq {base : Nat} {ds es : List Nat} (hds : ∀ d ∈ ds, d < base)
    (hes : ∀ e ∈ es, e < base) (hlength : ds.length = es.length)
    (hnumber : number base ds = number base es) : ds = es := by
  induction ds generalizing es with
  | nil => exact (List.length_eq_zero_iff.mp hlength.symm).symm
  | cons d ds ih =>
      cases es with
      | nil => cases hlength
      | cons e es =>
          rw [List.forall_mem_cons] at hds hes
          have htails : ds.length = es.length := Nat.succ.inj hlength
          have hlow := number_lt hds.2
          have hlow' := number_lt hes.2
          rw [number, number, htails] at hnumber
          rw [htails] at hlow
          have hhead : d = e := by
            have hdiv := congrArg (· / base ^ es.length) hnumber
            have hpos : 0 < base ^ es.length := Nat.lt_of_le_of_lt (Nat.zero_le _) hlow
            simpa only [Nat.mul_comm _ (base ^ es.length), Nat.mul_add_div hpos,
              Nat.div_eq_of_lt hlow, Nat.div_eq_of_lt hlow', Nat.add_zero] using hdiv
          subst hhead
          rw [ih hds.2 hes.2 htails (Nat.add_left_cancel hnumber)]

theorem letter_eq {n : Nat} (h : n < 64) : letter n = alphabet.getD n '=' := by
  have hall : ∀ m < 64, letter m = alphabet.getD m '=' := by decide +kernel
  exact hall n h

/-! ## Texts -/

theorem isStandard_encode (bytes : List UInt8) : IsStandard (encode bytes) bytes := by
  induction bytes using encode.induct with
  | case1 => exact ⟨[], 0, rfl, List.forall_mem_nil _, by decide, rfl, rfl⟩
  | case2 a =>
      have ha := a.toNat_lt
      refine ⟨[a.toNat / 4, a.toNat % 4 * 16], 2, ?_, ?_, by decide, rfl, ?_⟩
      · rw [encode, letter_eq (by omega), letter_eq (by omega)]
        rfl
      · simp only [List.forall_mem_cons, List.not_mem_nil, false_imp_iff, implies_true, and_true]
        omega
      · simp only [number, List.map_cons, List.map_nil, List.length_cons, List.length_nil]
        omega
  | case3 a b =>
      have ha := a.toNat_lt
      have hb := b.toNat_lt
      refine ⟨[a.toNat / 4, a.toNat % 4 * 16 + b.toNat / 16, b.toNat % 16 * 4], 1, ?_, ?_,
        by decide, rfl, ?_⟩
      · rw [encode, letter_eq (by omega), letter_eq (by omega), letter_eq (by omega)]
        rfl
      · simp only [List.forall_mem_cons, List.not_mem_nil, false_imp_iff, implies_true, and_true]
        omega
      · simp only [number, List.map_cons, List.map_nil, List.length_cons, List.length_nil]
        omega
  | case4 a b c rest ih =>
      have ha := a.toNat_lt
      have hb := b.toNat_lt
      have hc := c.toNat_lt
      obtain ⟨digits, pads, htext, hdigits, hpads, hlength, hnumber⟩ := ih
      let group := [a.toNat / 4, a.toNat % 4 * 16 + b.toNat / 16, b.toNat % 16 * 4 + c.toNat / 64,
        c.toNat % 64]
      refine ⟨group ++ digits, pads, ?_, ?_, hpads, ?_, ?_⟩
      · rw [encode, letter_eq (by omega), letter_eq (by omega), letter_eq (by omega),
          letter_eq (by omega), htext]
        rfl
      · refine List.forall_mem_append.mpr ⟨?_, hdigits⟩
        simp only [group, List.forall_mem_cons, List.not_mem_nil, false_imp_iff, implies_true,
          and_true]
        omega
      · rw [List.length_append]
        simp only [group, List.length_cons, List.length_nil]
        omega
      · have hgroup : number 64 group = number 256 [a.toNat, b.toNat, c.toNat] := by
          simp only [group, number, List.length_cons, List.length_nil]
          omega
        -- with the pads both have one length in bits
        have hpow : 64 ^ digits.length = 256 ^ (rest.map UInt8.toNat).length * 4 ^ pads := by
          rw [List.length_map, show 64 = 4 ^ 3 from rfl, show 256 = 4 ^ 4 from rfl, ← Nat.pow_mul,
            ← Nat.pow_mul, ← Nat.pow_add]
          congr 1
          omega
        change _ = number 256 ([a.toNat, b.toNat, c.toNat] ++ rest.map UInt8.toNat) * 4 ^ pads
        rw [number_append, number_append, hgroup, hnumber, hpow, Nat.add_mul, Nat.mul_assoc]

theorem IsStandard.unique {text text' : List Char} {bytes : List UInt8}
    (h : IsStandard text bytes) (h' : IsStandard text' bytes) : text = text' := by
  obtain ⟨digits, pads, rfl, hdigits, hpads, hlength, hnumber⟩ := h
  obtain ⟨digits', pads', rfl, hdigits', hpads', hlength', hnumber'⟩ := h'
  obtain rfl : pads = pads' := by omega
  rw [eq_of_number_eq hdigits hdigits' (by omega) (hnumber.trans hnumber'.symm)]

theorem isStandard_iff {text : List Char} {bytes : List UInt8} :
    IsStandard text bytes ↔ text = encode bytes :=
  ⟨fun h => h.unique (isStandard_encode bytes), fun h => h ▸ isStandard_encode bytes⟩

/-- Decoding accepts the standard texts and no others. -/
theorem decode_eq_some_iff_isStandard {text : List Char} {bytes : List UInt8} :
    decode text = some bytes ↔ IsStandard text bytes :=
  decode_eq_some_iff.trans isStandard_iff.symm

end Alerting.Text.Base64
