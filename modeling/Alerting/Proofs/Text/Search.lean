import Alerting.Text.Basic
/-!
# Searching

Words in texts, runs of characters of one kind, and the white space at the ends.
-/

namespace Alerting.Text

theorem mentions_iff {word text : List Char} : mentions word text = true ↔ word <:+: text := by
  induction text with
  | nil => rw [mentions, List.isEmpty_iff, List.infix_nil]
  | cons c cs ih =>
      rw [mentions, Bool.or_eq_true, ih, List.isPrefixOf_iff_prefix, List.infix_cons_iff]

theorem mentions_append (before word after : String) :
    mentions word.toList (before ++ word ++ after).toList = true := by
  rw [mentions_iff, String.toList_append, String.toList_append]
  exact List.infix_append _ _ _

/-! ## Runs -/

theorem span_append {p : Char → Bool} {l rest : List Char} (hl : ∀ c ∈ l, p c = true)
    (hrest : ∀ c ∈ rest.head?, p c = false) :
    (l ++ rest).takeWhile p = l ∧ (l ++ rest).dropWhile p = rest := by
  rw [List.takeWhile_append_of_pos hl, List.dropWhile_append_of_pos hl]
  cases rest with
  | nil => exact ⟨List.append_nil l, rfl⟩
  | cons c rest =>
      have hc : p c = false := hrest c rfl
      rw [List.takeWhile_cons, List.dropWhile_cons, hc]
      exact ⟨List.append_nil l, rfl⟩

theorem exists_span (p : Char → Bool) (cs : List Char) :
    ∃ run rest, cs = run ++ rest ∧ (∀ c ∈ run, p c = true) ∧ ∀ c ∈ rest.head?, p c = false := by
  refine ⟨cs.takeWhile p, cs.dropWhile p, List.takeWhile_append_dropWhile.symm,
    List.all_eq_true.mp List.all_takeWhile, fun c hc => ?_⟩
  have hstop := List.head?_dropWhile_not p cs
  rw [Option.mem_def.mp hc] at hstop
  exact hstop

/-! ## Trimming -/

theorem trimChars_append {before core after : List Char} (hbefore : ∀ c ∈ before, isBlank c = true)
    (hafter : ∀ c ∈ after, isBlank c = true) (hhead : ∀ c ∈ core.head?, isBlank c = false)
    (hlast : ∀ c ∈ core.getLast?, isBlank c = false) :
    trimChars (before ++ (core ++ after)) = core := by
  unfold trimChars dropBlank
  rw [List.dropWhile_append_of_pos hbefore]
  cases core with
  | nil =>
      have hnil : (after ++ []).dropWhile isBlank = [].dropWhile isBlank :=
        List.dropWhile_append_of_pos hafter
      rw [List.append_nil] at hnil
      rw [List.nil_append, hnil]
      rfl
  | cons c core =>
      have hc : isBlank c = false := hhead c rfl
      have hrest : ∀ d ∈ (c :: core).reverse.head?, isBlank d = false := by
        rwa [List.head?_reverse]
      have hafter' : ∀ d ∈ after.reverse, isBlank d = true := fun d hd =>
        hafter d (List.mem_reverse.mp hd)
      rw [List.cons_append, List.dropWhile_cons_of_neg (by rw [hc]; exact Bool.false_ne_true),
        ← List.cons_append, List.reverse_append, (span_append hafter' hrest).2,
        List.reverse_reverse]

theorem trimChars_of_not_blank {cs : List Char} (h : ∀ c ∈ cs, isBlank c = false) :
    trimChars cs = cs := by
  have htrim : trimChars ([] ++ (cs ++ [])) = cs := trimChars_append nofun nofun
    (fun c hc => h c (List.mem_of_mem_head? hc)) (fun c hc => h c (List.mem_of_getLast? hc))
  rwa [List.nil_append, List.append_nil] at htrim

end Alerting.Text
