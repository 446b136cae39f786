import Alerting.Numeric.Notation
import Alerting.Proofs.Json.Spelling
/-!
# Figures for people, read again

The text of an integer for people has its digits in groups of three from the right
(`isGroupedText_groupedInt`).  Nothing of the integer is lost: without the commas the text is the
numeral (`filter_groupedInt`), and it is read as the same number (`ofText?_groupedInt`).
-/

namespace Alerting.Numeric

/-! ## Groups of digits -/

/-- Whether digits are cut into a first group of one to three and further groups of three. -/
structure AreGroups (digits first : List Char) (groups : List (List Char)) : Prop where
  digits_eq : digits = first ++ groups.flatten
  first_pos : 0 < first.length
  first_le : first.length ≤ 3
  length_eq : ∀ g ∈ groups, g.length = 3

theorem AreGroups.length_mod {digits first : List Char} {groups : List (List Char)}
    (h : AreGroups digits first groups) : digits.length % 3 = first.length % 3 := by
  have hflatten : groups.flatten.length = groups.length * 3 := by
    rw [List.length_flatten, List.map_congr_left h.length_eq, List.map_const',
      List.sum_replicate_nat]
  rw [h.digits_eq, List.length_append, hflatten, Nat.add_mul_mod_self_right]

theorem exists_groups {digits : List Char} (hne : digits ≠ []) :
    ∃ first groups, AreGroups digits first groups ∧
      groupThousands digits = first ++ groups.flatMap (',' :: ·) := by
  induction digits with
  | nil => exact absurd rfl hne
  | cons d digits ih =>
      rw [groupThousands]
      by_cases hnil : digits = []
      · subst hnil
        exact ⟨[d], [], ⟨rfl, by simp, by simp, nofun⟩, rfl⟩
      obtain ⟨first, groups, hgroups, htext⟩ := ih hnil
      have hfirst := hgroups.first_pos
      have hfirst' := hgroups.first_le
      have hmod := hgroups.length_mod
      by_cases hfull : digits.length % 3 = 0
      · -- the first group is full, so that the digit starts another one
        refine ⟨[d], first :: groups, ⟨?_, by simp, by simp, ?_⟩, ?_⟩
        · rw [hgroups.digits_eq]
          rfl
        · exact List.forall_mem_cons.mpr ⟨by omega, hgroups.length_eq⟩
        · rw [if_pos (by simp [hfull, hnil]), htext]
          rfl
      · refine ⟨d :: first, groups, ⟨?_, Nat.succ_pos _, ?_, hgroups.length_eq⟩, ?_⟩
        · rw [hgroups.digits_eq]
          rfl
        · rw [List.length_cons]
          omega
        · rw [if_neg (by simp [hfull]), htext]
          rfl

theorem mem_groupThousands {digits : List Char} :
    ∀ c ∈ groupThousands digits, c ∈ digits ∨ c = ',' := by
  induction digits with
  | nil => nofun
  | cons d digits ih =>
      intro c hc
      rw [groupThousands] at hc
      split at hc
      · grind
      · grind

theorem filter_groupThousands {digits : List Char} (h : ∀ c ∈ digits, c ≠ ',') :
    (groupThousands digits).filter (· ≠ ',') = digits := by
  induction digits with
  | nil => rfl
  | cons d digits ih =>
      rw [List.forall_mem_cons] at h
      rw [groupThousands]
      split
      · simpa [h.1] using ih h.2
      · simpa [h.1] using ih h.2

/-! ## Texts of integers -/

theorem toList_groupedInt (n : Int) :
    (groupedInt n).toList = signChars n ++ groupThousands (Nat.toDigits 10 n.natAbs) := by
  unfold groupedInt signChars
  dsimp only
  rw [String.toList_ofList]
  split <;> rfl

theorem mem_groupedInt {n : Int} :
    ∀ c ∈ (groupedInt n).toList, c.isDigit = true ∨ c = '-' ∨ c = ',' := by
  intro c hc
  rw [toList_groupedInt, List.mem_append] at hc
  rcases hc with hsign | hdigits
  · unfold signChars at hsign
    split at hsign
    · exact .inr (.inl (List.mem_singleton.mp hsign))
    · cases hsign
  · rcases mem_groupThousands c hdigits with hdigit | hcomma
    · exact .inl (isDigit_of_mem_toDigits c hdigit)
    · exact .inr (.inr hcomma)

theorem eq_zero_of_head?_toDigits {n : Nat} (h : (Nat.toDigits 10 n).head? = some '0') : n = 0 := by
  obtain ⟨tail, htail⟩ := List.head?_eq_some_iff.mp h
  have hdecimal : decimal n = 0 :: tail.map fun c => c.toNat - '0'.toNat := by
    unfold decimal
    rw [htail]
    rfl
  have hvalue := ofDigits_decimal n
  rw [hdecimal, eq_nil_of_decimal_eq_zero_cons hdecimal] at hvalue
  exact hvalue.symm

/-- Whether a text has an optional sign, up to three digits, and groups of three digits with a comma
before each; only zero starts with a zero, and it has no sign. -/
def IsGroupedText (text : String) : Prop :=
  ∃ (sign first : List Char) (groups : List (List Char)),
    text.toList = sign ++ (first ++ groups.flatMap (',' :: ·)) ∧ (sign = [] ∨ sign = ['-']) ∧
      1 ≤ first.length ∧ first.length ≤ 3 ∧ (∀ g ∈ groups, g.length = 3) ∧
      (∀ c ∈ first ++ groups.flatten, c.isDigit = true) ∧
      (first.head? = some '0' → text = "0")

theorem isGroupedText_groupedInt (n : Int) : IsGroupedText (groupedInt n) := by
  have hne : Nat.toDigits 10 n.natAbs ≠ [] := Nat.toDigits_ne_nil
  obtain ⟨first, groups, hgroups, htext⟩ := exists_groups hne
  refine ⟨signChars n, first, groups, ?_, ?_, hgroups.first_pos, hgroups.first_le,
    hgroups.length_eq, ?_, ?_⟩
  · rw [toList_groupedInt, htext]
  · unfold signChars
    split
    · exact .inr rfl
    · exact .inl rfl
  · rw [← hgroups.digits_eq]
    exact isDigit_of_mem_toDigits
  · intro hzero
    have hhead : (Nat.toDigits 10 n.natAbs).head? = some '0' := by
      rw [hgroups.digits_eq, List.head?_append, hzero, Option.some_or]
    obtain rfl := Int.natAbs_eq_zero.mp (eq_zero_of_head?_toDigits hhead)
    rfl

theorem filter_groupedInt (n : Int) :
    (groupedInt n).toList.filter (· ≠ ',') = n.repr.toList := by
  have hdigits : ∀ c ∈ Nat.toDigits 10 n.natAbs, c ≠ ',' := fun c hc =>
    ne_of_isDigit (isDigit_of_mem_toDigits c hc) (by decide)
  have hsign : (signChars n).filter (· ≠ ',') = signChars n := by
    unfold signChars
    split <;> rfl
  rw [toList_groupedInt, toList_repr, List.filter_append, hsign, filter_groupThousands hdigits]

theorem groupedInt_injective : Function.Injective groupedInt := by
  intro m n h
  have htext : m.repr = n.repr := by
    rw [← String.toList_inj]
    rw [← filter_groupedInt, h, filter_groupedInt]
  -- one text is the literal of one integer only
  have hscan := Json.Numeral.scan_text_int m
  change Json.Numeral.scan m.repr.toList = _ at hscan
  rw [htext] at hscan
  have hliteral := Except.ok.inj (hscan.symm.trans (Json.Numeral.scan_text_int n))
  obtain ⟨hsign, hdecimal, -⟩ := Json.Numeral.mk.inj (Prod.mk.inj hliteral).1
  have habs : m.natAbs = n.natAbs := by
    rw [← ofDigits_decimal m.natAbs, hdecimal, ofDigits_decimal]
  have hneg : m < 0 ↔ n < 0 := decide_eq_decide.mp hsign
  omega

/-! ## Texts read as numbers -/

theorem ofText?_groupedInt (n : Int) : ofText? (groupedInt n) = ofText? n.repr := by
  have hblank : ∀ c ∈ (groupedInt n).toList, Text.isBlank c = false := by
    intro c hc
    rcases mem_groupedInt c hc with hdigit | rfl | rfl
    · exact (Json.Numeral.isKept_of_isDigit hdigit).1
    · decide
    · decide
  have hblank' : ∀ c ∈ n.repr.toList, Text.isBlank c = false := by
    rw [← filter_groupedInt]
    exact fun c hc => hblank c ((List.mem_filter.mp hc).1)
  unfold ofText?
  rw [Text.trimChars_of_not_blank hblank, Text.trimChars_of_not_blank hblank',
    ← filter_groupedInt, List.filter_filter]
  simp only [Bool.and_self]

end Alerting.Numeric
