import Alerting.Numeric.Decimal
import Alerting.Proofs.Json.Numeral
import Alerting.Proofs.Text.Search
import Mathlib.Tactic.Ring
/-!
# How literals are spelled

A literal of a number is a sign, digits, and a fraction and an exponent that may be absent
(`spells_of_scan`).
-/

namespace Alerting

namespace Numeric

def digitValues (cs : List Char) : List Nat :=
  cs.map fun c => c.toNat - '0'.toNat

theorem ofDigits_append (ds ds' : List Nat) :
    ofDigits (ds ++ ds') = ds'.foldl (fun n d => 10 * n + d) (ofDigits ds) :=
  List.foldl_append

structure AreDigits (cs : List Char) : Prop where
  ne_nil : cs ≠ []
  isDigit : ∀ c ∈ cs, c.isDigit = true

theorem toNat_bounds {c : Char} (h : c.isDigit = true) : 48 ≤ c.toNat ∧ c.toNat ≤ 57 := by
  simpa [Char.isDigit, UInt32.le_iff_toNat_le] using h

theorem digit?_of_isDigit {c : Char} (h : c.isDigit = true) :
    digit? c = some (c.toNat - '0'.toNat) :=
  if_pos h

theorem lt_ten_of_mem_digitValues {cs : List Char} (h : ∀ c ∈ cs, c.isDigit = true) :
    ∀ d ∈ digitValues cs, d < 10 := by
  intro d hd
  obtain ⟨c, hc, rfl⟩ := List.mem_map.mp hd
  have hbounds := toNat_bounds (h c hc)
  have hzero : '0'.toNat = 48 := rfl
  omega

theorem ne_of_isDigit {c d : Char} (hc : c.isDigit = true) (hd : d.isDigit = false) : c ≠ d := by
  rintro rfl
  rw [hc] at hd
  cases hd

namespace AreDigits

variable {cs : List Char} (h : AreDigits cs)

include h

theorem exists_cons : ∃ c tail, cs = c :: tail ∧ c.isDigit = true := by
  obtain ⟨c, tail, rfl⟩ := List.exists_cons_of_ne_nil h.ne_nil
  exact ⟨c, tail, rfl, h.isDigit c List.mem_cons_self⟩

theorem exists_spanDigits : ∃ d ds, digitValues cs = d :: ds ∧ spanDigits cs = (d :: ds, []) := by
  obtain ⟨c, tail, rfl, -⟩ := h.exists_cons
  exact ⟨_, _, rfl, spanDigits_of_forall h.isDigit⟩

end AreDigits

theorem exists_of_spanDigits {cs rest : List Char} {ds : List Nat}
    (h : spanDigits cs = (ds, rest)) :
    ∃ digits, cs = digits ++ rest ∧ ds = digitValues digits ∧ ∀ c ∈ digits, c.isDigit = true := by
  induction cs generalizing ds rest with
  | nil =>
      cases h
      exact ⟨[], rfl, rfl, nofun⟩
  | cons c cs ih =>
      unfold spanDigits at h
      cases hdigit : c.isDigit with
      | false =>
          rw [digit?, hdigit, if_neg Bool.false_ne_true] at h
          cases h
          exact ⟨[], rfl, rfl, nofun⟩
      | true =>
          rw [digit?_of_isDigit hdigit] at h
          cases h
          obtain ⟨digits, hcs, hds, hdigits⟩ := ih rfl
          refine ⟨c :: digits, congrArg (c :: ·) hcs, congrArg (_ :: ·) hds, ?_⟩
          exact List.forall_mem_cons.mpr ⟨hdigit, hdigits⟩

end Numeric

namespace Json.Numeral

open Numeric

/-! ## Numbers of a literal -/

def coefficient (lit : Numeral) : Nat :=
  ofDigits (lit.whole ++ lit.fraction.getD [])

def places (lit : Numeral) : Nat :=
  (lit.fraction.getD []).length

def power (lit : Numeral) : Int :=
  lit.exponent.getD 0 - lit.places

/-- The places that are left when the literal is rounded to a decimal. -/
def keptPlaces (lit : Numeral) : Nat :=
  min lit.places Decimal.maxPlaces

/-- The unit of the last place that is left, in units of the last place of the literal. -/
def keptUnit (lit : Numeral) : Nat :=
  10 ^ (lit.places - Decimal.maxPlaces)

/-- The coefficient rounded to the places that are left, from a half upwards. -/
def keptCoefficient (lit : Numeral) : Nat :=
  (lit.coefficient + lit.keptUnit / 2) / lit.keptUnit

def keptPower (lit : Numeral) : Int :=
  lit.exponent.getD 0 - lit.keptPlaces

section Kept

variable (lit : Numeral)

theorem keptUnit_pos : 0 < lit.keptUnit :=
  Nat.pow_pos (by decide)

variable {lit} in
theorem kept_of_places_le (h : lit.places ≤ Decimal.maxPlaces) :
    lit.keptPlaces = lit.places ∧ lit.keptCoefficient = lit.coefficient := by
  have hunit : lit.keptUnit = 1 := by
    rw [keptUnit, Nat.sub_eq_zero_of_le h, Nat.pow_zero]
  refine ⟨Nat.min_eq_left h, ?_⟩
  rw [keptCoefficient, hunit, Nat.div_one]
  rfl

variable {lit} in
theorem keptPower_of_places_le (h : lit.places ≤ Decimal.maxPlaces) :
    lit.keptPower = lit.power := by
  rw [keptPower, (kept_of_places_le h).1, power]

/-- Rounding at most doubles a number, as from less than a half it leaves nothing. -/
theorem keptCoefficient_mul_le : lit.keptCoefficient * lit.keptUnit ≤ 2 * lit.coefficient := by
  rcases Nat.lt_or_ge (lit.coefficient + lit.keptUnit / 2) lit.keptUnit with hless | hmore
  · rw [keptCoefficient, Nat.div_eq_of_lt hless, Nat.zero_mul]
    exact Nat.zero_le _
  · have hle := Nat.div_mul_le_self (lit.coefficient + lit.keptUnit / 2) lit.keptUnit
    unfold keptCoefficient
    omega

theorem keptCoefficient_le : lit.keptCoefficient ≤ lit.coefficient := by
  rcases Nat.lt_or_ge Decimal.maxPlaces lit.places with hmany | hplaces
  · have hten : 10 ≤ lit.keptUnit := Nat.le_self_pow (by omega) 10
    have hmul := Nat.mul_le_mul_left lit.keptCoefficient hten
    have hle := lit.keptCoefficient_mul_le
    omega
  · exact (kept_of_places_le hplaces).2.le

/-- Nothing is lost exactly if there are zeros only behind the places that are left. -/
theorem keptCoefficient_mul_eq_iff :
    lit.keptCoefficient * lit.keptUnit = lit.coefficient ↔ lit.keptUnit ∣ lit.coefficient := by
  constructor
  · intro h
    exact ⟨lit.keptCoefficient, by rw [Nat.mul_comm, h]⟩
  · rintro ⟨kept, hkept⟩
    have hpos := lit.keptUnit_pos
    have hhalf : lit.keptUnit / 2 < lit.keptUnit := Nat.div_lt_self hpos (by decide)
    rw [keptCoefficient, hkept, Nat.mul_add_div hpos, Nat.div_eq_of_lt hhalf, Nat.add_zero,
      Nat.mul_comm]

end Kept

/-- Digits that follow are what is divided off by a power of ten. -/
theorem foldl_digits_div {ds : List Nat} (hds : ∀ d ∈ ds, d < 10) (n : Nat) :
    ds.foldl (fun n d => 10 * n + d) n / 10 ^ ds.length = n := by
  induction ds generalizing n with
  | nil => exact Nat.div_one n
  | cons d ds ih =>
      obtain ⟨hd, hds⟩ := List.forall_mem_cons.mp hds
      rw [List.foldl_cons, List.length_cons, Nat.pow_succ, ← Nat.div_div_eq_div_mul, ih hds]
      omega

/-- With too many places the first digit that has none rounds the ones before. -/
theorem keptCoefficient_of_take {lit : Numeral} (hdigits : ∀ d ∈ lit.fraction.getD [], d < 10)
    (h : Decimal.maxPlaces < lit.places) :
    lit.keptCoefficient =
      (ofDigits (lit.whole ++ (lit.fraction.getD []).take (Decimal.maxPlaces + 1)) + 5) / 10 := by
  -- the unit is ten times what the digits behind the rounding one are counted in
  obtain ⟨dropped, hdropped⟩ := Nat.exists_eq_add_of_lt h
  have hunit : lit.keptUnit = 10 ^ dropped * 10 := by
    rw [keptUnit, hdropped, ← Nat.pow_succ]
    congr 1
    omega
  have hfront : ofDigits (lit.whole ++ (lit.fraction.getD []).take (Decimal.maxPlaces + 1)) =
      lit.coefficient / 10 ^ dropped := by
    have hlength : ((lit.fraction.getD []).drop (Decimal.maxPlaces + 1)).length = dropped := by
      rw [List.length_drop]
      change lit.places - _ = _
      omega
    have hsmall : ∀ d ∈ (lit.fraction.getD []).drop (Decimal.maxPlaces + 1), d < 10 :=
      fun d hd => hdigits d (List.mem_of_mem_drop hd)
    have hdiv := foldl_digits_div hsmall
      (ofDigits (lit.whole ++ (lit.fraction.getD []).take (Decimal.maxPlaces + 1)))
    rw [← ofDigits_append, List.append_assoc, List.take_append_drop, hlength] at hdiv
    exact hdiv.symm
  have hhalf : 10 ^ dropped * 10 / 2 = 10 ^ dropped * 5 := by omega
  rw [hfront, keptCoefficient, hunit, ← Nat.div_div_eq_div_mul, hhalf,
    Nat.add_mul_div_left _ _ (Nat.pow_pos (by decide))]

/-! ## Parts of a literal -/

inductive SpellsFraction : Option (List Nat) → List Char → Prop
  | absent : SpellsFraction none []
  | present {digits : List Char} (hdigits : AreDigits digits) :
    SpellsFraction (some (digitValues digits)) ('.' :: digits)

theorem SpellsFraction.lt_ten {fraction : Option (List Nat)} {cs : List Char}
    (h : SpellsFraction fraction cs) : ∀ d ∈ fraction.getD [], d < 10 := by
  cases h with
  | absent => nofun
  | present hdigits => exact lt_ten_of_mem_digitValues hdigits.isDigit

inductive SpellsExponent : Option Int → List Char → Prop
  | absent : SpellsExponent none []
  | positive {mark : Char} {sign digits : List Char} (hmark : mark = 'e' ∨ mark = 'E')
      (hsign : sign = [] ∨ sign = ['+']) (hdigits : AreDigits digits) :
    SpellsExponent (some (ofDigits (digitValues digits))) (mark :: (sign ++ digits))
  | negative {mark : Char} {digits : List Char} (hmark : mark = 'e' ∨ mark = 'E')
      (hdigits : AreDigits digits) :
    SpellsExponent (some (-(ofDigits (digitValues digits) : Int))) (mark :: '-' :: digits)

theorem SpellsExponent.nil_or_mark {exponent : Option Int} {cs : List Char}
    (h : SpellsExponent exponent cs) :
    exponent = none ∧ cs = [] ∨
      ∃ e mark rest, exponent = some e ∧ cs = mark :: rest ∧ (mark = 'e' ∨ mark = 'E') := by
  cases h with
  | absent => exact .inl ⟨rfl, rfl⟩
  | positive hmark hsign hdigits => exact .inr ⟨_, _, _, rfl, rfl, hmark⟩
  | negative hmark hdigits => exact .inr ⟨_, _, _, rfl, rfl, hmark⟩

inductive Spells : Numeral → List Char → Prop
  | parts {negative : Bool} {whole : List Char} {fraction : Option (List Nat)}
      {exponent : Option Int} {fractionText exponentText : List Char} (hwhole : AreDigits whole)
      (hfraction : SpellsFraction fraction fractionText)
      (hexponent : SpellsExponent exponent exponentText) :
    Spells ⟨negative, digitValues whole, fraction, exponent⟩
      ((if negative then ['-'] else []) ++ (whole ++ (fractionText ++ exponentText)))

theorem scanMinus_eq (cs : List Char) :
    (if (scanMinus cs).1 then ['-'] else []) ++ (scanMinus cs).2 = cs := by
  unfold scanMinus
  split <;> rfl

theorem exists_of_scanSign (cs : List Char) :
    ∃ sign, cs = sign ++ (scanSign cs).2 ∧
      if (scanSign cs).1 then sign = ['-'] else sign = [] ∨ sign = ['+'] := by
  unfold scanSign
  split
  · exact ⟨['+'], rfl, .inr rfl⟩
  · refine ⟨_, (scanMinus_eq cs).symm, ?_⟩
    split
    · rfl
    · exact .inl rfl

theorem exists_of_digits {cs rest : List Char} {ds : List Nat} (h : digits cs = .ok (ds, rest)) :
    ∃ found, cs = found ++ rest ∧ ds = digitValues found ∧ AreDigits found := by
  unfold digits at h
  cases hspan : spanDigits cs with
  | mk ds' rest' =>
      obtain ⟨found, hcs, hds, hfound⟩ := exists_of_spanDigits hspan
      rw [hspan] at h
      cases ds' with
      | nil => cases rest' <;> cases h
      | cons d ds' =>
          cases h
          refine ⟨found, hcs, hds, ?_, hfound⟩
          rintro rfl
          cases hds

theorem exists_of_scanWhole {cs rest : List Char} {ds : List Nat}
    (h : scanWhole cs = .ok (ds, rest)) :
    ∃ found, cs = found ++ rest ∧ ds = digitValues found ∧ AreDigits found := by
  obtain ⟨⟨found, left⟩, hdigits, h⟩ := exists_of_bind_eq_ok h
  dsimp only at h
  split at h
  · cases h
  · cases h
    exact exists_of_digits hdigits

theorem exists_of_scanFraction {cs rest : List Char} {fraction : Option (List Nat)}
    (h : scanFraction cs = .ok (fraction, rest)) :
    ∃ text, cs = text ++ rest ∧ SpellsFraction fraction text := by
  unfold scanFraction at h
  split at h
  · obtain ⟨⟨ds, left⟩, hdigits, h⟩ := exists_of_bind_eq_ok h
    obtain ⟨found, rfl, rfl, hfound⟩ := exists_of_digits hdigits
    cases h
    exact ⟨'.' :: found, rfl, .present hfound⟩
  · cases h
    exact ⟨[], rfl, .absent⟩

theorem spells_of_scanExponent {cs : List Char} {exponent : Option Int}
    (h : scanExponent cs = .ok (exponent, [])) : SpellsExponent exponent cs := by
  unfold scanExponent at h
  cases cs with
  | nil =>
      cases h
      exact .absent
  | cons mark cs =>
      dsimp only at h
      split at h
      · next hmark =>
        rw [Bool.or_eq_true, decide_eq_true_iff, decide_eq_true_iff] at hmark
        obtain ⟨⟨ds, left⟩, hdigits, h⟩ := exists_of_bind_eq_ok h
        obtain ⟨found, hcs, rfl, hfound⟩ := exists_of_digits hdigits
        obtain ⟨sign, hsplit, hsign⟩ := exists_of_scanSign cs
        cases h
        rw [hcs, List.append_nil] at hsplit
        cases hnegative : (scanSign cs).1 with
        | true =>
            rw [hnegative, if_pos rfl] at hsign
            rw [if_pos rfl, hsplit, hsign]
            exact .negative hmark hfound
        | false =>
            rw [hnegative, if_neg Bool.false_ne_true] at hsign
            rw [if_neg Bool.false_ne_true, hsplit]
            exact .positive hmark hsign hfound
      · cases h

/-- What is read as a literal is spelled as one. -/
theorem spells_of_scan {cs : List Char} {lit : Numeral} (h : scan cs = .ok (lit, [])) :
    Spells lit cs := by
  obtain ⟨⟨whole, left⟩, hwhole, h⟩ := exists_of_bind_eq_ok h
  obtain ⟨⟨fraction, left⟩, hfraction, h⟩ := exists_of_bind_eq_ok h
  obtain ⟨⟨exponent, left⟩, hexponent, h⟩ := exists_of_bind_eq_ok h
  cases h
  obtain ⟨wholeText, hcs, rfl, hdigits⟩ := exists_of_scanWhole hwhole
  obtain ⟨fractionText, rfl, hspelled⟩ := exists_of_scanFraction hfraction
  have htext : (if (scanMinus cs).1 then ['-'] else []) ++ (wholeText ++ (fractionText ++ left)) =
      cs := by
    rw [← hcs]
    exact scanMinus_eq cs
  have hparts : Spells ⟨(scanMinus cs).1, digitValues wholeText, fraction, exponent⟩
      ((if (scanMinus cs).1 then ['-'] else []) ++ (wholeText ++ (fractionText ++ left))) :=
    .parts hdigits hspelled (spells_of_scanExponent hexponent)
  rw [htext] at hparts
  exact hparts

theorem Spells.ne_nil {lit : Numeral} {cs : List Char} (h : Spells lit cs) : cs ≠ [] := by
  cases h with
  | parts hwhole hfraction hexponent => simp [hwhole.ne_nil]

/-! ## Characters of a literal -/

/-- The characters that stay when a text is read as a number. -/
def IsKept (c : Char) : Prop :=
  Text.isBlank c = false ∧ c ≠ ','

instance (c : Char) : Decidable (IsKept c) :=
  inferInstanceAs (Decidable (_ ∧ _))

theorem isKept_of_isDigit {c : Char} (h : c.isDigit = true) : IsKept c := by
  obtain ⟨hlow, hhigh⟩ := toNat_bounds h
  refine ⟨?_, ?_⟩
  · simp [Text.isBlank, Text.blankRanges]
    omega
  · exact ne_of_isDigit h (by decide)

theorem isKept_of_areDigits {cs : List Char} (h : AreDigits cs) : ∀ c ∈ cs, IsKept c :=
  fun c hc => isKept_of_isDigit (h.isDigit c hc)

theorem SpellsFraction.isKept {fraction : Option (List Nat)} {cs : List Char}
    (h : SpellsFraction fraction cs) : ∀ c ∈ cs, IsKept c := by
  cases h with
  | absent => nofun
  | present hdigits => exact List.forall_mem_cons.mpr ⟨by decide, isKept_of_areDigits hdigits⟩

theorem isKept_of_mark {mark : Char} (h : mark = 'e' ∨ mark = 'E') : IsKept mark := by
  rcases h with rfl | rfl <;> decide

theorem SpellsExponent.isKept {exponent : Option Int} {cs : List Char}
    (h : SpellsExponent exponent cs) : ∀ c ∈ cs, IsKept c := by
  cases h with
  | absent => nofun
  | positive hmark hsign hdigits =>
      refine List.forall_mem_cons.mpr ⟨isKept_of_mark hmark, List.forall_mem_append.mpr ⟨?_, ?_⟩⟩
      · rcases hsign with rfl | rfl
        · nofun
        · exact List.forall_mem_singleton.mpr (by decide)
      · exact isKept_of_areDigits hdigits
  | negative hmark hdigits =>
      exact List.forall_mem_cons.mpr
        ⟨isKept_of_mark hmark, List.forall_mem_cons.mpr ⟨by decide, isKept_of_areDigits hdigits⟩⟩

theorem Spells.isKept {lit : Numeral} {cs : List Char} (h : Spells lit cs) :
    ∀ c ∈ cs, IsKept c := by
  cases h with
  | @parts negative _ _ _ _ _ hwhole hfraction hexponent =>
      rw [List.forall_mem_append, List.forall_mem_append, List.forall_mem_append]
      refine ⟨?_, isKept_of_areDigits hwhole, hfraction.isKept, hexponent.isKept⟩
      cases negative with
      | true => exact List.forall_mem_singleton.mpr (by decide)
      | false => nofun

theorem trimChars_of_isKept {cs : List Char} (h : ∀ c ∈ cs, IsKept c) : Text.trimChars cs = cs :=
  Text.trimChars_of_not_blank fun c hc => (h c hc).1

end Json.Numeral

end Alerting
