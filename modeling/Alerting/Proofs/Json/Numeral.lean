import Alerting.Proofs.Json.Reader
import Mathlib.Algebra.Group.Int.Defs
/-!
# Literals of numbers

The decimal text of an integer that fits 64 bits is a literal of it, whatever follows that does not
go on with the number.  Every literal that stands for an integer stands for one that fits.
-/

namespace Alerting

/-! ## Decimal digits -/

namespace Numeric

theorem spanDigits_append (cs : List Char) {rest : List Char}
    (hrest : ∀ c ∈ rest.head?, digit? c = none) :
    spanDigits (cs ++ rest) = ((spanDigits cs).1, (spanDigits cs).2 ++ rest) := by
  induction cs with
  | nil =>
      cases rest with
      | nil => rfl
      | cons c rest =>
          have hc : digit? c = none := hrest c rfl
          simp [spanDigits, hc]
  | cons c cs ih =>
      cases hc : digit? c with
      | none => simp [spanDigits, hc]
      | some d => simp [spanDigits, hc, ih]

theorem spanDigits_of_forall {cs : List Char} (h : ∀ c ∈ cs, c.isDigit = true) :
    spanDigits cs = (cs.map fun c => c.toNat - '0'.toNat, []) := by
  induction cs with
  | nil => rfl
  | cons c cs ih =>
      rw [List.forall_mem_cons] at h
      simp [spanDigits, digit?, h.1, ih h.2]

theorem ofDigits_concat (ds : List Nat) (d : Nat) :
    ofDigits (ds ++ [d]) = 10 * ofDigits ds + d := by
  simp [ofDigits]

def decimal (n : Nat) : List Nat :=
  (Nat.toDigits 10 n).map fun c => c.toNat - '0'.toNat

theorem isDigit_of_mem_toDigits {n : Nat} : ∀ c ∈ Nat.toDigits 10 n, c.isDigit = true :=
  fun _ hc => Nat.isDigit_of_mem_toDigits (by decide) (by decide) hc

theorem spanDigits_toDigits (n : Nat) : spanDigits (Nat.toDigits 10 n) = (decimal n, []) :=
  spanDigits_of_forall isDigit_of_mem_toDigits

theorem decimal_of_lt {n : Nat} (hn : n < 10) : decimal n = [n] := by
  unfold decimal
  rw [Nat.toDigits_of_lt_base hn, List.map_singleton]
  exact congrArg ([·]) (Nat.toNat_digitChar_sub_48_of_lt_ten hn)

theorem decimal_of_le {n : Nat} (hn : 10 ≤ n) : decimal n = decimal (n / 10) ++ [n % 10] := by
  have hmod : n % 10 < 10 := Nat.mod_lt n (by decide)
  unfold decimal
  rw [Nat.toDigits_of_base_le (by decide) hn, List.map_append, List.map_singleton]
  exact congrArg (_ ++ [·]) (Nat.toNat_digitChar_sub_48_of_lt_ten hmod)

theorem ofDigits_decimal (n : Nat) : ofDigits (decimal n) = n := by
  induction n using Nat.strongRecOn with
  | ind n ih =>
      rcases Nat.lt_or_ge n 10 with hn | hn
      · simp [decimal_of_lt hn, ofDigits]
      · rw [decimal_of_le hn, ofDigits_concat, ih _ (by omega)]
        omega

theorem decimal_ne_nil (n : Nat) : decimal n ≠ [] := by
  simp [decimal, Nat.toDigits_ne_nil]

theorem eq_nil_of_decimal_eq_zero_cons {n : Nat} {ds : List Nat} (h : decimal n = 0 :: ds) :
    ds = [] := by
  induction n using Nat.strongRecOn generalizing ds with
  | ind n ih =>
      rcases Nat.lt_or_ge n 10 with hlt | hge
      · rw [decimal_of_lt hlt] at h
        simp_all
      · rw [decimal_of_le hge] at h
        cases hfirst : decimal (n / 10) with
        | nil => exact absurd hfirst (decimal_ne_nil _)
        | cons d ds' =>
            rw [hfirst] at h
            obtain ⟨rfl, -⟩ := List.cons.inj h
            obtain rfl := ih (n / 10) (by omega) hfirst
            have hzero := ofDigits_decimal (n / 10)
            rw [hfirst] at hzero
            have : n / 10 = 0 := hzero.symm
            omega

def signChars (n : Int) : List Char :=
  if n < 0 then ['-'] else []

theorem toList_repr (n : Int) : n.repr.toList = signChars n ++ Nat.toDigits 10 n.natAbs := by
  rw [Int.repr_eq_if, signChars]
  by_cases hneg : n < 0
  · have habs : (-n).toNat = n.natAbs := by omega
    rw [if_neg (by omega), if_pos hneg, String.toList_append, Nat.toList_repr, habs]
    rfl
  · have habs : n.toNat = n.natAbs := by omega
    rw [if_pos (by omega), if_neg hneg, Nat.toList_repr, habs]
    rfl

end Numeric

namespace Json

namespace Numeral

open Numeric

/-! ## Literals of integers -/

theorem le_foldl_digits (ds : List Nat) (n : Nat) : n ≤ ds.foldl (fun n d => 10 * n + d) n := by
  induction ds generalizing n with
  | nil => exact Nat.le_refl n
  | cons d ds ih => exact Nat.le_trans (by omega) (ih (10 * n + d))

theorem absorb_of_le (ds : List Nat) (significand : Nat)
    (h : ds.foldl (fun n d => 10 * n + d) significand ≤ maxSignificand) :
    absorb significand ds = (ds.foldl (fun n d => 10 * n + d) significand, 0) := by
  induction ds generalizing significand with
  | nil => rfl
  | cons d ds ih =>
      have hfits : 10 * significand + d ≤ maxSignificand := Nat.le_trans (le_foldl_digits ds _) h
      rw [absorb, if_pos hfits]
      exact ih _ h

theorem absorb_decimal {n : Nat} (hn : n ≤ maxSignificand) : absorb 0 (decimal n) = (n, 0) := by
  have h : (decimal n).foldl (fun n d => 10 * n + d) 0 = n := ofDigits_decimal n
  rw [absorb_of_le (decimal n) 0 (by rw [h]; exact hn), h]

theorem absorb_le {ds : List Nat} {significand : Nat} (h : significand ≤ maxSignificand) :
    (absorb significand ds).1 ≤ maxSignificand := by
  induction ds generalizing significand with
  | nil => exact h
  | cons d ds ih =>
      rw [absorb]
      split
      · next hfits => exact ih hfits
      · exact h

/-- The integers that a literal can stand for: those of 64 bits, signed or unsigned. -/
def Fits64 (n : Int) : Prop :=
  -2 ^ 63 ≤ n ∧ n < 2 ^ 64

instance (n : Int) : Decidable (Fits64 n) :=
  inferInstanceAs (Decidable (_ ∧ _))

theorem fits64_of_value? {lit : Numeral} {n : Int} (h : lit.value? = some (.int n)) : Fits64 n := by
  have hwhole : (absorb 0 lit.whole).1 ≤ maxSignificand := absorb_le (Nat.zero_le _)
  have hmax : maxSignificand < 2 ^ 64 := by decide
  unfold value? at h
  dsimp only at h
  split at h
  · split at h
    · cases h
      constructor <;> omega
    · split at h
      · cases h
      · next hsmall =>
        rw [Bool.or_eq_true, decide_eq_true_iff, decide_eq_true_iff, not_or] at hsmall
        have hpow : Nat.pow 2 63 = 2 ^ 63 := rfl
        cases h
        constructor <;> omega
  · obtain ⟨x, -, hx⟩ := Option.map_eq_some_iff.mp h
    cases hx

def ofInt (n : Int) : Numeral :=
  ⟨n < 0, decimal n.natAbs, none, none⟩

theorem value?_ofInt {n : Int} (hn : Fits64 n) : (ofInt n).value? = some (.int n) := by
  obtain ⟨hlow, hhigh⟩ := hn
  have hmax : maxSignificand = 2 ^ 64 - 1 := by decide
  have hpow : Nat.pow 2 63 = 2 ^ 63 := rfl
  obtain ⟨m, hm⟩ : ∃ m, m = n.natAbs := ⟨_, rfl⟩
  have habsorb : absorb 0 (ofInt n).whole = (m, 0) := by
    rw [hm]
    exact absorb_decimal (by omega)
  unfold value?
  rw [habsorb]
  by_cases hneg : n < 0
  · have hzero : m ≠ 0 := by omega
    have hsmall : ¬ Nat.pow 2 63 < m := by omega
    have habs : -(m : Int) = n := by omega
    simp [ofInt, hneg, hzero, hsmall, habs]
  · have habs : (m : Int) = n := by omega
    simp [ofInt, hneg, habs]

/-! ## Literals in a text -/

/-- Whether a text ends the value before it: it is over, or goes on with a separator or a closing
bracket. -/
def EndsValue (rest : List Char) : Prop :=
  ∀ c ∈ rest.head?, c = ',' ∨ c = ']' ∨ c = '\x7d'

theorem scanMinus_append (c : Char) (cs rest : List Char) :
    scanMinus (c :: cs ++ rest) =
      ((scanMinus (c :: cs)).1, (scanMinus (c :: cs)).2 ++ rest) := by
  by_cases hminus : c = '-'
  · subst hminus
    rfl
  · simp [scanMinus, hminus]

theorem scanSign_append (c : Char) (cs rest : List Char) :
    scanSign (c :: cs ++ rest) = ((scanSign (c :: cs)).1, (scanSign (c :: cs)).2 ++ rest) := by
  by_cases hplus : c = '+'
  · subst hplus
    rfl
  · have hsign : ∀ tail, scanSign (c :: tail) = scanMinus (c :: tail) := by
      intro tail
      simp [scanSign, hplus]
    rw [List.cons_append, hsign, hsign]
    exact scanMinus_append c cs rest

section Append

variable {rest : List Char} (hrest : EndsValue rest)

include hrest

theorem digits_append {cs r : List Char} {ds : List Nat} (h : digits cs = .ok (ds, r)) :
    digits (cs ++ rest) = .ok (ds, r ++ rest) := by
  have hdigit : ∀ c ∈ rest.head?, digit? c = none := by
    intro c hc
    rcases hrest c hc with rfl | rfl | rfl <;> rfl
  unfold digits at h ⊢
  rw [spanDigits_append cs hdigit]
  cases hspan : spanDigits cs with
  | mk found left =>
      rw [hspan] at h
      cases found with
      | nil => cases left <;> cases h
      | cons d found =>
          cases h
          rfl

theorem scanWhole_append {cs r : List Char} {ds : List Nat} (h : scanWhole cs = .ok (ds, r)) :
    scanWhole (cs ++ rest) = .ok (ds, r ++ rest) := by
  obtain ⟨⟨found, left⟩, hdigits, hfound⟩ := exists_of_bind_eq_ok h
  unfold scanWhole
  rw [digits_append hrest hdigits]
  dsimp only [bind, Except.bind] at hfound ⊢
  split at hfound
  · cases hfound
  · obtain ⟨rfl, rfl⟩ := Prod.mk.inj (Except.ok.inj hfound)
    rfl

theorem scanFraction_append {cs r : List Char} {ds : Option (List Nat)}
    (h : scanFraction cs = .ok (ds, r)) : scanFraction (cs ++ rest) = .ok (ds, r ++ rest) := by
  unfold scanFraction at h
  split at h
  · next cs =>
    obtain ⟨⟨found, left⟩, hdigits, hfound⟩ := exists_of_bind_eq_ok h
    cases hfound
    rw [List.cons_append, scanFraction, digits_append hrest hdigits]
    rfl
  · next hpoint =>
    cases h
    have hnone : ∀ tail, cs ++ rest ≠ '.' :: tail := by
      intro tail heq
      cases cs with
      | nil =>
          subst heq
          rcases hrest '.' rfl with h | h | h <;> cases h
      | cons c cs =>
          obtain ⟨rfl, -⟩ := List.cons.inj heq
          exact hpoint cs rfl
    unfold scanFraction
    split
    · next tail heq => exact absurd heq (hnone tail)
    · rfl

theorem scanExponent_append {cs r : List Char} {n : Option Int}
    (h : scanExponent cs = .ok (n, r)) : scanExponent (cs ++ rest) = .ok (n, r ++ rest) := by
  unfold scanExponent at h ⊢
  cases cs with
  | nil =>
      cases h
      cases rest with
      | nil => rfl
      | cons c rest =>
          have hmark : ¬ (c = 'e' ∨ c = 'E') := by
            rcases hrest c rfl with rfl | rfl | rfl <;> decide
          exact if_neg (by simpa using hmark)
  | cons mark cs =>
      dsimp only [List.cons_append] at h ⊢
      split at h
      · next hmark =>
        rw [if_pos hmark]
        cases cs with
        | nil => cases h
        | cons c cs =>
            obtain ⟨⟨ds, left⟩, hdigits, hfound⟩ := exists_of_bind_eq_ok h
            cases hfound
            rw [scanSign_append, digits_append hrest hdigits]
            rfl
      · next hmark =>
        rw [if_neg hmark]
        cases h
        rfl

theorem scan_append {cs r : List Char} {lit : Numeral} (h : scan cs = .ok (lit, r)) :
    scan (cs ++ rest) = .ok (lit, r ++ rest) := by
  cases cs with
  | nil => cases h
  | cons c cs =>
      obtain ⟨⟨whole, left⟩, hwhole, h⟩ := exists_of_bind_eq_ok h
      change scanWhole (scanMinus (c :: cs)).2 = _ at hwhole
      obtain ⟨⟨fraction, left⟩, hfraction, h⟩ := exists_of_bind_eq_ok h
      obtain ⟨⟨exponent, left⟩, hexponent, h⟩ := exists_of_bind_eq_ok h
      cases h
      unfold scan
      rw [scanMinus_append]
      dsimp only
      rw [scanWhole_append hrest hwhole]
      dsimp only [bind, Except.bind]
      rw [scanFraction_append hrest hfraction]
      dsimp only
      rw [scanExponent_append hrest hexponent]
      rfl

end Append

theorem head_of_scan {cs r : List Char} {lit : Numeral} (h : scan cs = .ok (lit, r)) :
    ∃ c tail, cs = c :: tail ∧ (c = '-' || c.isDigit) = true := by
  cases cs with
  | nil => cases h
  | cons c cs =>
      refine ⟨c, cs, rfl, ?_⟩
      by_cases hminus : c = '-'
      · simp [hminus]
      by_cases hdigit : c.isDigit = true
      · simp [hdigit]
      · have hspan : spanDigits (c :: cs) = ([], c :: cs) := by simp [spanDigits, digit?, hdigit]
        have hsign : scanMinus (c :: cs) = (false, c :: cs) := by simp [scanMinus, hminus]
        unfold scan scanWhole digits at h
        rw [hsign] at h
        dsimp only at h
        rw [hspan] at h
        cases h

theorem scanWhole_toDigits (n : Nat) : scanWhole (Nat.toDigits 10 n) = .ok (decimal n, []) := by
  unfold scanWhole digits
  rw [spanDigits_toDigits]
  cases hds : decimal n with
  | nil => exact absurd hds (decimal_ne_nil n)
  | cons d ds =>
      dsimp only [bind, Except.bind]
      split
      · next d' ds' heq =>
        rw [heq] at hds
        cases eq_nil_of_decimal_eq_zero_cons hds
      · rfl

theorem scanMinus_toDigits (n : Nat) :
    scanMinus (Nat.toDigits 10 n) = (false, Nat.toDigits 10 n) := by
  unfold scanMinus
  split
  · next cs heq =>
    have hdigit : ('-' : Char).isDigit = true :=
      isDigit_of_mem_toDigits '-' (heq ▸ List.mem_cons_self)
    exact absurd hdigit (by decide)
  · rfl

theorem scan_text_int (n : Int) : scan (Number.int n).text.toList = .ok (ofInt n, []) := by
  change scan n.repr.toList = _
  rw [toList_repr, ofInt, signChars]
  by_cases hneg : n < 0
  · rw [if_pos hneg, decide_eq_true hneg]
    unfold scan
    change (scanWhole (Nat.toDigits 10 n.natAbs)).bind _ = _
    rw [scanWhole_toDigits]
    rfl
  · rw [if_neg hneg, decide_eq_false hneg, List.nil_append]
    unfold scan
    rw [scanMinus_toDigits]
    dsimp only
    rw [scanWhole_toDigits]
    rfl

end Numeral

/-- Whether the text of the number is a literal of it. -/
def Number.IsLiteral (n : Number) : Prop :=
  ∃ lit, Numeral.scan n.text.toList = .ok (lit, []) ∧ lit.value? = some n

theorem Number.isLiteral_int {n : Int} (hn : Numeral.Fits64 n) : (Number.int n).IsLiteral :=
  ⟨.ofInt n, Numeral.scan_text_int n, Numeral.value?_ofInt hn⟩

end Json

end Alerting
