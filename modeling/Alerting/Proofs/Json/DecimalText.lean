import Alerting.Proofs.Json.Spelling
import Alerting.Proofs.Numeric.Decimal
/-!
# Literals read as decimals

The text of a literal is also the text of a decimal, whose digits are rounded to 28 places before an
exponent moves its point, `ofText?_eq_ofPower?`.  With up to 28 places nothing is lost, and the text
stands for the coefficient of the literal and its power of ten, `exists_ofText?_of_spells`.
-/

namespace Alerting

namespace Numeric.Decimal

open Json.Numeral

/-! ## Digits -/

theorem readUnsigned_digits {cs : List Char} (hcs : ∀ c ∈ cs, c.isDigit = true) (rest : List Char)
    {n : Nat} {places : Option Nat} {started : Bool}
    (hplaces : ∀ p ∈ places, p + cs.length ≤ maxPlaces)
    (hlimit : (digitValues cs).foldl (fun n d => 10 * n + d) n < limit) :
    readUnsigned ⟨n, places, started⟩ (cs ++ rest) =
      readUnsigned ⟨(digitValues cs).foldl (fun n d => 10 * n + d) n, places.map (· + cs.length),
        started || !cs.isEmpty⟩ rest := by
  induction cs generalizing n places started with
  | nil => simp [digitValues]
  | cons c cs ih =>
      rw [List.forall_mem_cons] at hcs
      have hopen : places.any (maxPlaces ≤ ·) = false := by
        cases places with
        | none => rfl
        | some p =>
            have hle := hplaces p rfl
            rw [List.length_cons] at hle
            exact decide_eq_false (by omega)
      have hfits : 10 * n + (c.toNat - '0'.toNat) < limit :=
        Nat.lt_of_le_of_lt (le_foldl_digits (digitValues cs) _) hlimit
      rw [List.cons_append, readUnsigned, hopen, digit?_of_isDigit hcs.1]
      dsimp only
      rw [decide_eq_true hfits, if_pos (by rfl), ih hcs.2 ?_ hlimit]
      · cases places with
        | none => simp [digitValues]
        | some p => simp [digitValues, Nat.add_assoc, Nat.add_comm 1]
      · rintro p hp
        obtain ⟨p', hp', rfl⟩ := Option.map_eq_some_iff.mp hp
        have hle := hplaces p' hp'
        rw [List.length_cons] at hle
        omega

theorem digit?_mark {mark : Char} (hmark : mark = 'e' ∨ mark = 'E') : digit? mark = none := by
  rcases hmark with rfl | rfl <;> rfl

/-- No decimal goes on with an exponent. -/
theorem readUnsigned_mark (p : Progress) {mark : Char} (hmark : mark = 'e' ∨ mark = 'E')
    (rest : List Char) : readUnsigned p (mark :: rest) = none := by
  rw [readUnsigned, digit?_mark hmark]
  rcases hmark with rfl | rfl <;> simp

theorem isFiller_of_isDigit {c : Char} (h : c.isDigit = true) : isFiller c = true := by
  rw [isFiller, digit?_of_isDigit h]
  rfl

theorem isFiller_mark {mark : Char} (h : mark = 'e' ∨ mark = 'E') : isFiller mark = false := by
  rcases h with rfl | rfl <;> rfl

theorem all_isFiller_exponent {exponent : Option Int} {text : List Char}
    (h : SpellsExponent exponent text) : text.all isFiller = exponent.isNone := by
  obtain ⟨rfl, rfl⟩ | ⟨e, mark, rest, rfl, rfl, hmark⟩ := h.nil_or_mark
  · rfl
  · rw [List.all_cons, isFiller_mark hmark]
    rfl

theorem all_isFiller_append {digits : List Char} (hdigits : ∀ c ∈ digits, c.isDigit = true)
    (rest : List Char) : (digits ++ rest).all isFiller = rest.all isFiller := by
  have hall : digits.all isFiller = true :=
    List.all_eq_true.mpr fun c hc => isFiller_of_isDigit (hdigits c hc)
  rw [List.all_append, hall, Bool.true_and]

/-- The digit after the last place rounds the decimal, if only digits follow. -/
theorem readUnsigned_full {n : Nat} {c : Char} (hc : c.isDigit = true) (rest : List Char)
    {started : Bool} (hlimit : (10 * n + (c.toNat - '0'.toNat) + 5) / 10 < limit) :
    readUnsigned ⟨n, some maxPlaces, started⟩ (c :: rest) =
      if rest.all isFiller then some ((10 * n + (c.toNat - '0'.toNat) + 5) / 10, maxPlaces)
      else none := by
  have hdigit : c.toNat - '0'.toNat < 10 := by
    have hbounds := toNat_bounds hc
    have hzero : '0'.toNat = 48 := rfl
    omega
  rw [readUnsigned, digit?_of_isDigit hc]
  generalize c.toNat - '0'.toNat = d at hdigit hlimit ⊢
  change Progress.roundBy ⟨n, some maxPlaces, started⟩ d rest = _
  unfold Progress.roundBy
  dsimp only [Option.getD_some]
  cases rest.all isFiller with
  | false => rfl
  | true =>
      rw [if_neg (by decide), if_pos rfl]
      split
      · have hdown : (10 * n + d + 5) / 10 = n := by omega
        rw [hdown]
      · have hup : (10 * n + d + 5) / 10 = n + 1 := by omega
        rw [hup] at hlimit ⊢
        rw [if_pos hlimit]

/-! ## Whole texts -/

theorem readUnsigned_whole {whole : List Char} (hwhole : AreDigits whole) (rest : List Char)
    (hlimit : ofDigits (digitValues whole) < limit) :
    readUnsigned ⟨0, none, false⟩ (whole ++ rest) =
      readUnsigned ⟨ofDigits (digitValues whole), none, true⟩ rest := by
  have hstarted : (false || !whole.isEmpty) = true := by
    simp [hwhole.ne_nil]
  have hplaces : ∀ p ∈ (none : Option Nat), p + whole.length ≤ maxPlaces := by
    rintro p ⟨⟩
  rw [readUnsigned_digits hwhole.isDigit rest hplaces hlimit, hstarted]
  rfl

theorem readUnsigned_point {n : Nat} {digits : List Char} (hdigits : ∀ c ∈ digits, c.isDigit = true)
    (rest : List Char) (hplaces : digits.length ≤ maxPlaces)
    (hlimit : (digitValues digits).foldl (fun n d => 10 * n + d) n < limit) :
    readUnsigned ⟨n, none, true⟩ ('.' :: (digits ++ rest)) =
      readUnsigned ⟨(digitValues digits).foldl (fun n d => 10 * n + d) n, some digits.length, true⟩
        rest := by
  change readUnsigned ⟨n, some 0, true⟩ (digits ++ rest) = _
  rw [readUnsigned_digits hdigits rest (by simpa using hplaces) hlimit]
  simp

/-- The digits that have a place, the first one that has none, and the others. -/
theorem exists_roundingDigit {digits : List Char} (h : maxPlaces < digits.length) :
    ∃ kept c dropped, digits = kept ++ c :: dropped ∧ kept.length = maxPlaces ∧
      (digitValues digits).take (maxPlaces + 1) = digitValues kept ++ [c.toNat - '0'.toNat] := by
  have hsplit : digits =
      digits.take maxPlaces ++ digits[maxPlaces] :: digits.drop (maxPlaces + 1) := by
    rw [← List.drop_eq_getElem_cons h, List.take_append_drop]
  refine ⟨_, _, _, hsplit, List.length_take_of_le (Nat.le_of_lt h), ?_⟩
  rw [digitValues, digitValues, ← List.map_take, ← List.take_append_getElem h, List.map_append]
  rfl

section Parts

variable {whole fractionText : List Char} {fraction : Option (List Nat)}
  (hwhole : AreDigits whole) (hfraction : SpellsFraction fraction fractionText)

include hwhole hfraction

theorem readUnsigned_parts (hplaces : (fraction.getD []).length ≤ maxPlaces)
    (hlimit : ofDigits (digitValues whole ++ fraction.getD []) < limit) (rest : List Char) :
    readUnsigned ⟨0, none, false⟩ (whole ++ (fractionText ++ rest)) =
      readUnsigned
        ⟨ofDigits (digitValues whole ++ fraction.getD []), fraction.map List.length, true⟩
        rest := by
  rw [ofDigits_append] at hlimit ⊢
  rw [readUnsigned_whole hwhole _ (Nat.lt_of_le_of_lt (le_foldl_digits _ _) hlimit)]
  cases hfraction with
  | absent => rfl
  | @present digits hdigits =>
      have hlength : (digitValues digits).length = digits.length := List.length_map _
      rw [Option.getD_some, hlength] at hplaces
      rw [List.cons_append, readUnsigned_point hdigits.isDigit rest hplaces hlimit]
      rw [Option.map_some, hlength, Option.getD_some]

/-- Of more digits than there are places the first that has no place rounds the decimal. -/
theorem readUnsigned_many_places (hplaces : maxPlaces < (fraction.getD []).length)
    (hlimit : (ofDigits (digitValues whole ++ (fraction.getD []).take (maxPlaces + 1)) + 5) / 10 <
      limit) (rest : List Char) :
    readUnsigned ⟨0, none, false⟩ (whole ++ (fractionText ++ rest)) =
      if rest.all isFiller then
        some ((ofDigits (digitValues whole ++ (fraction.getD []).take (maxPlaces + 1)) + 5) / 10,
          maxPlaces)
      else none := by
  cases hfraction with
  | absent => cases hplaces
  | @present digits hdigits =>
      have hlength : (digitValues digits).length = digits.length := List.length_map _
      rw [Option.getD_some, hlength] at hplaces
      obtain ⟨kept, c, dropped, rfl, hkept, htake⟩ := exists_roundingDigit hplaces
      obtain ⟨hkeptDigits, hothers⟩ := List.forall_mem_append.mp hdigits.isDigit
      obtain ⟨hc, hdropped⟩ := List.forall_mem_cons.mp hothers
      have hsum : ofDigits (digitValues whole ++ (digitValues kept ++ [c.toNat - '0'.toNat])) =
          10 * (digitValues kept).foldl (fun n d => 10 * n + d) (ofDigits (digitValues whole)) +
            (c.toNat - '0'.toNat) := by
        rw [← List.append_assoc, ofDigits_concat, ofDigits_append]
      rw [Option.getD_some, htake, hsum] at hlimit ⊢
      have hkeptLimit : (digitValues kept).foldl (fun n d => 10 * n + d)
          (ofDigits (digitValues whole)) < limit := by
        omega
      rw [readUnsigned_whole hwhole _ (Nat.lt_of_le_of_lt (le_foldl_digits _ _) hkeptLimit),
        List.cons_append, List.append_assoc,
        readUnsigned_point hkeptDigits _ (Nat.le_of_eq hkept) hkeptLimit, hkept,
        ← all_isFiller_append hdropped]
      exact readUnsigned_full hc _ hlimit

end Parts

/-! ## Signs -/

theorem ofChars?_eq {cs : List Char} (hcs : ∀ c ∈ cs.head?, c.isDigit = true) (negative : Bool) :
    ofChars? ((if negative then ['-'] else []) ++ cs) =
      (readUnsigned ⟨0, none, false⟩ cs).map (make negative) := by
  cases negative with
  | true => rfl
  | false =>
      rw [if_neg Bool.false_ne_true, List.nil_append]
      unfold ofChars?
      split
      · next tail => exact absurd (hcs '-' rfl) (by decide)
      · next tail => exact absurd (hcs '+' rfl) (by decide)
      · rfl

theorem isDigit_head {whole : List Char} (hwhole : AreDigits whole) (rest : List Char) :
    ∀ c ∈ (whole ++ rest).head?, c.isDigit = true := by
  obtain ⟨c, tail, rfl, hc⟩ := hwhole.exists_cons
  rintro _ ⟨⟩
  exact hc

/-! ## Exponents -/

/-- The decimal with a coefficient and a power of ten, if there is one. -/
def ofPower? (negative : Bool) (digits : Nat) (power : Int) : Option Decimal :=
  if power ≤ 0 then
    if -maxPlaces ≤ power then some ⟨negative, digits, (-power).toNat⟩ else none
  else
    let digits := digits * 10 ^ power.toNat
    if digits < limit then some ⟨negative, digits, 0⟩ else none

theorem shift_true (d : Decimal) (n : Nat) :
    d.shift true n = ofPower? d.negative d.digits (-n - d.places) := by
  have hpower : -(n : Int) - d.places ≤ 0 := by omega
  have hplaces : (-(-(n : Int) - d.places)).toNat = d.places + n := by omega
  have hroom : -(maxPlaces : Int) ≤ -n - d.places ↔ d.places + n ≤ maxPlaces := by omega
  unfold shift ofPower?
  rw [if_pos rfl, if_pos hpower, hplaces]
  simp only [hroom]

theorem shift_false {d : Decimal} (hd : d.places ≤ maxPlaces) (n : Nat) :
    d.shift false n =
      if n ≤ maxPlaces then ofPower? d.negative d.digits (n - d.places) else none := by
  unfold shift ofPower?
  rw [if_neg Bool.false_ne_true]
  by_cases hle : n ≤ d.places
  · have hpower : (n : Int) - d.places ≤ 0 := by omega
    have hplaces : (-((n : Int) - d.places)).toNat = d.places - n := by omega
    rw [if_pos hle, if_pos (hle.trans hd), if_pos hpower, if_pos (by omega), hplaces]
  · rw [if_neg hle]
    by_cases hmax : n ≤ maxPlaces
    · have hpower : ¬ (n : Int) - d.places ≤ 0 := by omega
      have hraised : ((n : Int) - d.places).toNat = n - d.places := by omega
      rw [if_neg hmax.not_gt, if_pos hmax, if_neg hpower, hraised]
      rfl
    · rw [if_pos (by omega), if_neg hmax]

theorem exponent?_digits {digits : List Char} (hdigits : AreDigits digits)
    (hlt : ofDigits (digitValues digits) < 2 ^ 32) {sign : List Char}
    (hsign : sign = [] ∨ sign = ['+']) :
    exponent? (sign ++ digits) = some (ofDigits (digitValues digits)) := by
  obtain ⟨d, ds, hvalues, hspan⟩ := hdigits.exists_spanDigits
  rw [hvalues] at hlt ⊢
  have hplus : exponent? ('+' :: digits) = some (ofDigits (d :: ds)) := by
    unfold exponent?
    simp only [hspan]
    exact if_pos hlt
  rcases hsign with rfl | rfl
  · obtain ⟨c, tail, rfl, hc⟩ := hdigits.exists_cons
    have hnotPlus : c ≠ '+' := ne_of_isDigit hc (by decide)
    rw [← hplus]
    simp [exponent?, hnotPlus]
  · exact hplus

theorem ofScientific?_append {front : List Char} (hfront : ∀ c ∈ front, c ≠ 'e' ∧ c ≠ 'E')
    {mark : Char} (hmark : mark = 'e' ∨ mark = 'E') (tail : List Char) :
    ofScientific? (front ++ mark :: tail) = (ofChars? front).bind (·.shiftBy? tail) := by
  have hnone : ∀ c ∈ front, (!(decide (c = 'e') || decide (c = 'E'))) = true := by
    intro c hc
    obtain ⟨hlower, hupper⟩ := hfront c hc
    simp [hlower, hupper]
  have hstop : ¬ (!(decide (mark = 'e') || decide (mark = 'E'))) = true := by
    rcases hmark with rfl | rfl <;> decide
  unfold ofScientific?
  dsimp only
  rw [List.dropWhile_append_of_pos hnone, List.takeWhile_append_of_pos hnone,
    List.dropWhile_cons_of_neg (by exact hstop), List.takeWhile_cons_of_neg (by exact hstop),
    List.append_nil]

theorem shiftBy?_digits {d : Decimal} (hd : d.places ≤ maxPlaces) {digits : List Char}
    (hdigits : AreDigits digits) (hlt : ofDigits (digitValues digits) < 2 ^ 32) {sign : List Char}
    (hsign : sign = [] ∨ sign = ['+']) :
    d.shiftBy? (sign ++ digits) =
      if ofDigits (digitValues digits) ≤ maxPlaces then
        ofPower? d.negative d.digits (ofDigits (digitValues digits) - d.places)
      else none := by
  have hminus : ∀ tail, sign ++ digits ≠ '-' :: tail := by
    intro tail heq
    rcases hsign with rfl | rfl
    · obtain ⟨c, rest, rfl, hc⟩ := hdigits.exists_cons
      exact ne_of_isDigit hc (by decide) (List.cons.inj heq).1
    · cases heq
  unfold shiftBy?
  split
  · next tail heq => exact absurd heq (hminus tail)
  · rw [exponent?_digits hdigits hlt hsign, Option.bind_some, shift_false hd]

theorem shiftBy?_minus_digits (d : Decimal) {digits : List Char} (hdigits : AreDigits digits)
    (hlt : ofDigits (digitValues digits) < 2 ^ 32) :
    d.shiftBy? ('-' :: digits) =
      ofPower? d.negative d.digits (-ofDigits (digitValues digits) - d.places) := by
  have hexponent := exponent?_digits hdigits hlt (.inl rfl)
  rw [List.nil_append] at hexponent
  rw [shiftBy?, hexponent, Option.bind_some, shift_true]

/-! ## Literals -/

theorem ne_mark_of_isDigit {c : Char} (hc : c.isDigit = true) : c ≠ 'e' ∧ c ≠ 'E' :=
  ⟨ne_of_isDigit hc (by decide), ne_of_isDigit hc (by decide)⟩

theorem ne_mark_of_front {whole fractionText : List Char} {fraction : Option (List Nat)}
    (hwhole : AreDigits whole) (hfraction : SpellsFraction fraction fractionText)
    (negative : Bool) :
    ∀ c ∈ (if negative then ['-'] else []) ++ (whole ++ fractionText), c ≠ 'e' ∧ c ≠ 'E' := by
  rw [List.forall_mem_append, List.forall_mem_append]
  refine ⟨?_, fun c hc => ne_mark_of_isDigit (hwhole.isDigit c hc), ?_⟩
  · cases negative with
    | true => exact List.forall_mem_singleton.mpr (by decide)
    | false => nofun
  · cases hfraction with
    | absent => nofun
    | present hdigits =>
        refine List.forall_mem_cons.mpr ⟨by decide, fun c hc => ?_⟩
        exact ne_mark_of_isDigit (hdigits.isDigit c hc)

section Literal

variable {lit : Json.Numeral} {cs : List Char} (h : Spells lit cs)

include h

/-- Without an exponent a literal is a decimal, but for the digits that have no place. -/
theorem ofChars?_of_spells (hlimit : lit.keptCoefficient < limit) :
    ofChars? cs =
      if lit.exponent = none then some (make lit.negative (lit.keptCoefficient, lit.keptPlaces))
      else none := by
  cases h with
  | @parts negative whole fraction exponent fractionText exponentText hwhole hfraction hexponent =>
      rw [ofChars?_eq (isDigit_head hwhole _)]
      dsimp only
      rcases Nat.lt_or_ge maxPlaces (fraction.getD []).length with hmany | hplaces
      · have hkept :
            keptCoefficient ⟨negative, digitValues whole, fraction, exponent⟩ = _ :=
          keptCoefficient_of_take hfraction.lt_ten hmany
        have hkeptPlaces : keptPlaces ⟨negative, digitValues whole, fraction, exponent⟩ =
            maxPlaces :=
          Nat.min_eq_right (Nat.le_of_lt hmany)
        rw [hkept] at hlimit ⊢
        rw [readUnsigned_many_places hwhole hfraction hmany hlimit,
          all_isFiller_exponent hexponent, hkeptPlaces]
        cases exponent <;> rfl
      · obtain ⟨hkeptPlaces, hkept⟩ :
            keptPlaces ⟨negative, digitValues whole, fraction, exponent⟩ = _ ∧
              keptCoefficient ⟨negative, digitValues whole, fraction, exponent⟩ = _ :=
          kept_of_places_le hplaces
        rw [hkept] at hlimit ⊢
        rw [readUnsigned_parts hwhole hfraction hplaces hlimit, hkeptPlaces]
        obtain ⟨rfl, rfl⟩ | ⟨e, mark, rest, rfl, rfl, hmark⟩ := hexponent.nil_or_mark
        · cases fraction <;> rfl
        · rw [readUnsigned_mark _ hmark]
          rfl

/-- An exponent moves the point of the decimal before it. -/
theorem ofScientific?_of_spells (hlimit : lit.keptCoefficient < limit) {e : Int}
    (he : lit.exponent = some e) (hlt : e.natAbs < 2 ^ 32) :
    ofScientific? cs =
      if e ≤ maxPlaces then
        ofPower? (lit.negative && lit.keptCoefficient ≠ 0) lit.keptCoefficient (e - lit.keptPlaces)
      else none := by
  cases h with
  | @parts negative whole fraction exponent fractionText exponentText hwhole hfraction hexponent =>
      have hfront := ne_mark_of_front hwhole hfraction negative
      have hspelled : Spells ⟨negative, digitValues whole, fraction, none⟩
          ((if negative then ['-'] else []) ++ (whole ++ (fractionText ++ []))) :=
        .parts hwhole hfraction .absent
      have hdecimal := ofChars?_of_spells hspelled hlimit
      have hplaces : (keptPlaces ⟨negative, digitValues whole, fraction, none⟩) ≤ maxPlaces :=
        Nat.min_le_right _ _
      rw [if_pos rfl, List.append_nil] at hdecimal
      rw [← List.append_assoc whole, ← List.append_assoc]
      cases hexponent with
      | absent => cases he
      | positive hmark hsign hdigits =>
          cases he
          rw [ofScientific?_append hfront hmark, hdecimal, Option.bind_some,
            shiftBy?_digits hplaces hdigits (by simpa using hlt) hsign]
          simp only [Nat.cast_le]
          rfl
      | negative hmark hdigits =>
          cases he
          rw [ofScientific?_append hfront hmark, hdecimal, Option.bind_some,
            shiftBy?_minus_digits _ hdigits (by simpa using hlt), if_pos (by omega)]
          rfl

end Literal

/-! ## The floats that are read -/

/-- Only great numbers with a positive power of ten are no decimals. -/
theorem pos_of_ofPower?_eq_none {negative : Bool} {n : Nat} {k : Int} (hlow : -28 ≤ k)
    (h : ofPower? negative n k = none) : 0 < n ∧ 0 < k := by
  unfold ofPower? at h
  have hmax : -(maxPlaces : Int) ≤ k := hlow
  dsimp only at h
  by_cases hk : k ≤ 0
  · rw [if_pos hk, if_pos hmax] at h
    cases h
  · rw [if_neg hk] at h
    refine ⟨Nat.pos_of_ne_zero ?_, by omega⟩
    rintro rfl
    rw [Nat.zero_mul, if_pos (by decide)] at h
    cases h

section Power

variable {c : Nat} {k : Int} (hlt : c < 10 ^ 15) (hhigh : k ≤ 22)

include hlt hhigh

/-- A decimal with a power of ten becomes the float of the two. -/
theorem exists_isScaled_of_ofPower? (hlow : -28 ≤ k) {negative : Bool} {d : Decimal}
    (hd : ofPower? negative c k = some d) :
    ∃ x, d.toFloat = signed negative x ∧ IsScaled x c k := by
  unfold ofPower? at hd
  by_cases hk : k ≤ 0
  · have hmax : -(maxPlaces : Int) ≤ k := hlow
    have hpower : k = -(-k).toNat := by omega
    rw [if_pos hk, if_pos hmax] at hd
    cases hd
    refine ⟨_, toFloat_eq_signed .., ?_⟩
    have hscaled := isScaled_toFloat (show (-k).toNat ≤ 28 by omega) hlt
    rwa [← hpower] at hscaled
  · rw [if_neg hk] at hd
    dsimp only at hd
    split at hd
    · cases hd
      refine ⟨_, toFloat_eq_signed .., ?_⟩
      rw [toFloat_whole]
      exact isScaled_ofNat (by omega) (mul_ten_pow_lt hlt hhigh)
    · cases hd

/-- What no decimal can hold is read as a float, which is the one of the decimal as well. -/
theorem isScaled_toFloat_scientific (hk : 0 < k) : IsScaled (Scientific.toFloat ⟨c, k⟩) c k where
  zero := by
    rintro rfl
    rfl
  normal hc := by
    have hlength : (Nat.toDigits 10 c).length ≤ 15 :=
      (Nat.length_toDigits_le_iff (by norm_num) (by norm_num)).mpr hlt
    unfold Scientific.toFloat scaledValue
    dsimp only
    rw [if_neg (by simp; omega), if_neg (by omega), if_pos hk.le, decide_eq_false (by omega)]
    have habs : k.natAbs = k.toNat := by omega
    rw [habs]
    exact isNormal_ofScientific hc (mul_ten_pow_lt hlt hhigh)

end Power

end Numeric.Decimal

namespace Numeric

open Json.Numeral

theorem spanDigits_append_digits {digits : List Char} (hdigits : AreDigits digits)
    {rest : List Char} (hrest : ∀ c ∈ rest.head?, digit? c = none) :
    spanDigits (digits ++ rest) = (digitValues digits, rest) := by
  rw [spanDigits_append digits hrest, spanDigits_of_forall hdigits.isDigit]
  rfl

theorem digit?_head_exponent {exponent : Option Int} {text : List Char}
    (h : SpellsExponent exponent text) : ∀ c ∈ text.head?, digit? c = none := by
  obtain ⟨rfl, rfl⟩ | ⟨e, mark, rest, rfl, rfl, hmark⟩ := h.nil_or_mark
  · nofun
  · rintro _ ⟨⟩
    exact Decimal.digit?_mark hmark

theorem floatExponent?_of_spells {exponent : Option Int} {text : List Char}
    (h : SpellsExponent exponent text) : floatExponent? text = some (exponent.getD 0) := by
  cases h with
  | absent => rfl
  | @positive mark sign digits hmark hsign hdigits =>
      obtain ⟨d, ds, hvalues, hspan⟩ := hdigits.exists_spanDigits
      rw [hvalues]
      rcases hsign with rfl | rfl
      · obtain ⟨c, tail, rfl, hc⟩ := hdigits.exists_cons
        have hplus : c ≠ '+' := ne_of_isDigit hc (by decide)
        have hminus : c ≠ '-' := ne_of_isDigit hc (by decide)
        simp [floatExponent?, hmark, hplus, hminus, hspan]
      · simp [floatExponent?, hmark, hspan]
  | negative hmark hdigits =>
      obtain ⟨d, ds, hvalues, hspan⟩ := hdigits.exists_spanDigits
      rw [hvalues]
      simp [floatExponent?, hmark, hspan]

theorem spanFraction_append {fraction : Option (List Nat)} {fractionText exponentText : List Char}
    {exponent : Option Int} (hfraction : SpellsFraction fraction fractionText)
    (hexponent : SpellsExponent exponent exponentText) :
    spanFraction (fractionText ++ exponentText) = (fraction.getD [], exponentText) := by
  cases hfraction with
  | absent =>
      obtain ⟨rfl, rfl⟩ | ⟨e, mark, rest, rfl, rfl, hmark⟩ := hexponent.nil_or_mark
      · rfl
      · rcases hmark with rfl | rfl <;> rfl
  | present hdigits => exact spanDigits_append_digits hdigits (digit?_head_exponent hexponent)

theorem floatOfUnsigned?_of_parts {whole fractionText exponentText : List Char}
    {fraction : Option (List Nat)} {exponent : Option Int} (hwhole : AreDigits whole)
    (hfraction : SpellsFraction fraction fractionText)
    (hexponent : SpellsExponent exponent exponentText) :
    floatOfUnsigned? (whole ++ (fractionText ++ exponentText)) =
      some (Scientific.toFloat ⟨ofDigits (digitValues whole ++ fraction.getD []),
        exponent.getD 0 - (fraction.getD []).length⟩) := by
  have hhead : ∀ c ∈ (fractionText ++ exponentText).head?, digit? c = none := by
    cases hfraction with
    | absent => exact digit?_head_exponent hexponent
    | present hdigits =>
        rintro _ ⟨⟩
        rfl
  unfold floatOfUnsigned?
  rw [spanDigits_append_digits hwhole hhead]
  dsimp only
  rw [spanFraction_append hfraction hexponent]
  dsimp only
  obtain ⟨d, ds, hvalues, -⟩ := hwhole.exists_spanDigits
  rw [floatExponent?_of_spells hexponent, hvalues]
  rfl

section Literal

variable {lit : Json.Numeral}

theorem floatOfChars?_of_spells {cs : List Char} (h : Spells lit cs) :
    floatOfChars? cs =
      (some (signed lit.negative (Scientific.toFloat ⟨lit.coefficient, lit.power⟩))).filter
        (·.isFinite) := by
  cases h with
  | @parts negative whole fraction exponent fractionText exponentText hwhole hfraction hexponent =>
      have hfloat := floatOfUnsigned?_of_parts hwhole hfraction hexponent
      unfold floatOfChars?
      cases negative with
      | true =>
          change ((floatOfUnsigned? (whole ++ _)).map (-·)).filter _ = _
          rw [hfloat]
          rfl
      | false =>
          have hhead := Decimal.isDigit_head hwhole (fractionText ++ exponentText)
          rw [if_neg Bool.false_ne_true, List.nil_append]
          split
          · next tail heq =>
            rw [heq] at hhead
            exact absurd (hhead '-' rfl) (by decide)
          · next tail heq =>
            rw [heq] at hhead
            exact absurd (hhead '+' rfl) (by decide)
          · rw [hfloat]
            rfl

variable {s : String} (h : Spells lit s.toList)

include h

theorem ofText?_eq_of_spells :
    ofText? s =
      (((Decimal.ofChars? s.toList).or (Decimal.ofScientific? s.toList)).map Decimal.toFloat).or
        (floatOfChars? s.toList) := by
  have hkept := h.isKept
  have hcomma : s.toList.filter (· ≠ ',') = s.toList :=
    List.filter_eq_self.mpr fun c hc => decide_eq_true (hkept c hc).2
  have hnil : s.toList.isEmpty = false := Bool.eq_false_iff.mpr (List.isEmpty_iff.not.mpr h.ne_nil)
  unfold ofText?
  dsimp only
  rw [trimChars_of_isKept hkept, hcomma, hnil, if_neg Bool.false_ne_true]
  cases Decimal.ofChars? s.toList with
  | some d => rfl
  | none => cases Decimal.ofScientific? s.toList <;> rfl

/-- The decimal that a literal stands for is tried before the float. -/
theorem ofText?_eq_ofPower? (hlimit : lit.keptCoefficient < Decimal.limit)
    (hexponent : (lit.exponent.getD 0).natAbs < 2 ^ 32) :
    ofText? s =
      ((if lit.exponent.getD 0 ≤ Decimal.maxPlaces then
        Decimal.ofPower? (lit.negative && lit.keptCoefficient ≠ 0) lit.keptCoefficient
          lit.keptPower
        else none).map Decimal.toFloat).or (floatOfChars? s.toList) := by
  rw [ofText?_eq_of_spells h, Decimal.ofChars?_of_spells h hlimit]
  cases hsome : lit.exponent with
  | none =>
      have hpower : lit.keptPower = -lit.keptPlaces := by
        rw [keptPower, hsome, Option.getD_none]
        omega
      have hroom : lit.keptPlaces ≤ Decimal.maxPlaces := Nat.min_le_right _ _
      have hback : (-(-(lit.keptPlaces : Int))).toNat = lit.keptPlaces := by omega
      rw [if_pos rfl, Option.getD_none, if_pos (by decide), hpower, Decimal.ofPower?,
        if_pos (by omega), if_pos (by omega), hback]
      rfl
  | some e =>
      rw [hsome] at hexponent
      rw [if_neg (Option.some_ne_none e), Option.getD_some, Option.none_or,
        Decimal.ofScientific?_of_spells h hlimit hsome hexponent, keptPower, hsome]
      rfl

/-- An exponent that is not negative and has places to use up leaves a decimal. -/
theorem ofText?_of_exponent_le_places (hlimit : lit.keptCoefficient < Decimal.limit)
    (hnonneg : 0 ≤ lit.exponent.getD 0) (hle : lit.exponent.getD 0 ≤ lit.keptPlaces) :
    ofText? s = some (Decimal.toFloat
      ⟨lit.negative && lit.keptCoefficient ≠ 0, lit.keptCoefficient, (-lit.keptPower).toNat⟩) := by
  have hmax : Decimal.maxPlaces = 28 := rfl
  have hroom : lit.keptPlaces ≤ Decimal.maxPlaces := Nat.min_le_right _ _
  have hpower : lit.keptPower ≤ 0 := by
    unfold keptPower
    omega
  have hplaces : -(Decimal.maxPlaces : Int) ≤ lit.keptPower := by
    unfold keptPower
    omega
  rw [ofText?_eq_ofPower? h hlimit (by omega), if_pos (by omega), Decimal.ofPower?, if_pos hpower,
    if_pos hplaces, Option.map_some, Option.some_or]

/-- The float of a literal with few digits and a positive power of ten. -/
theorem exists_floatOfChars?_of_spells (hlt : lit.coefficient < 10 ^ 15) (hpos : 0 < lit.power)
    (hhigh : lit.power ≤ 22) :
    ∃ x, floatOfChars? s.toList = some x ∧
      value? x = some (signedScaled lit.negative lit.coefficient lit.power) := by
  have hvalue :=
    (Decimal.isScaled_toFloat_scientific hlt hhigh hpos).value?_signed lit.negative
  refine ⟨_, ?_, hvalue⟩
  rw [floatOfChars?_of_spells h, Option.filter_some, if_pos (FloatOrder.isFinite_of_value? hvalue)]

/-- A literal of few digits is read as what is left of its coefficient, and its power of ten. -/
theorem exists_ofText?_of_exponent_le (hexponent : lit.exponent.getD 0 ≤ Decimal.maxPlaces)
    (hlt : lit.keptCoefficient < 10 ^ 15) (hlow : -28 ≤ lit.keptPower)
    (hhigh : lit.keptPower ≤ 22) :
    ∃ x, ofText? s = some x ∧
      value? x =
        some (signedScaled lit.negative lit.keptCoefficient lit.keptPower) := by
  have hmax : Decimal.maxPlaces = 28 := rfl
  have hlimit : lit.keptCoefficient < Decimal.limit := hlt.trans (by decide)
  have hroom : lit.keptPlaces ≤ Decimal.maxPlaces := Nat.min_le_right _ _
  have hsmall : (lit.exponent.getD 0).natAbs < 2 ^ 32 := by
    unfold keptPower at hlow
    omega
  rw [ofText?_eq_ofPower? h hlimit hsmall, if_pos hexponent]
  cases hdecimal : Decimal.ofPower? (lit.negative && lit.keptCoefficient ≠ 0) lit.keptCoefficient
      lit.keptPower with
  | some d =>
      obtain ⟨x, hx, hscaled⟩ := Decimal.exists_isScaled_of_ofPower? hlt hhigh hlow hdecimal
      refine ⟨d.toFloat, rfl, ?_⟩
      rw [hx, hscaled.value?_signed, signedScaled_and]
  | none =>
      -- with so great a number there is an exponent left after all places, so none was lost
      obtain ⟨-, hpower⟩ := Decimal.pos_of_ofPower?_eq_none hlow hdecimal
      have hplaces : lit.places ≤ Decimal.maxPlaces := by
        unfold keptPower keptPlaces at hpower
        omega
      have hsame := keptPower_of_places_le hplaces
      rw [(kept_of_places_le hplaces).2] at hlt ⊢
      rw [hsame] at hhigh hpower ⊢
      exact exists_floatOfChars?_of_spells h hlt hpower hhigh

/-- Where no place is lost, the text stands for the coefficient and the power of ten. -/
theorem exists_ofText?_of_spells (hplaces : lit.places ≤ Decimal.maxPlaces)
    (hlt : lit.coefficient < 10 ^ 15) (hlow : -28 ≤ lit.power) (hhigh : lit.power ≤ 22) :
    ∃ x, ofText? s = some x ∧
      value? x = some (signedScaled lit.negative lit.coefficient lit.power) := by
  have hpower := keptPower_of_places_le hplaces
  have hkept := (kept_of_places_le hplaces).2
  rcases lt_or_ge (Decimal.maxPlaces : Int) (lit.exponent.getD 0) with hgreat | hexponent
  · have hpos : 0 < lit.power := by
      unfold power
      omega
    have hsmall : (lit.exponent.getD 0).natAbs < 2 ^ 32 := by
      have hmax : Decimal.maxPlaces = 28 := rfl
      unfold power at hhigh
      omega
    have hlimit : lit.keptCoefficient < Decimal.limit := hkept ▸ hlt.trans (by decide)
    rw [ofText?_eq_ofPower? h hlimit hsmall, if_neg (by omega)]
    exact exists_floatOfChars?_of_spells h hlt hpos hhigh
  · rw [← hkept] at hlt ⊢
    rw [← hpower] at hlow hhigh ⊢
    exact exists_ofText?_of_exponent_le h hexponent hlt hlow hhigh

end Literal

end Numeric

end Alerting
