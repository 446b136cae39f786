import Alerting.Proofs.Text.Entities
import Alerting.Proofs.Text.Search
import Mathlib.Data.List.Forall2
import Mathlib.Data.List.SplitBy
/-!
# Plain text and its white space

The plain text of HTML keeps the words of each line and nothing else of its white space.  Of a text
that was escaped it keeps all words, whatever they look like: no entity is decoded twice and none is
taken for a tag.
-/

namespace Alerting.Text

/-! ## Words of a line -/

/-- How a line reads as words: white space stands between them and may stand around them. -/
inductive Spells : List (List Char) → List Char → Prop
  | blank {line : List Char} (h : ∀ c ∈ line, isBlank c = true) : Spells [] line
  | word {before word after : List Char} {ws : List (List Char)}
      (hbefore : ∀ c ∈ before, isBlank c = true) (hne : word ≠ [])
      (hword : ∀ c ∈ word, isBlank c = false) (hend : ∀ c ∈ after.head?, isBlank c = true)
      (hafter : Spells ws after) : Spells (word :: ws) (before ++ (word ++ after))

theorem words_append {l m : List Char}
    (h : ∀ c ∈ l.getLast?, ∀ d ∈ m.head?, isBlank c ≠ isBlank d) :
    words (l ++ m) = words l ++ words m := by
  unfold words
  rw [List.splitBy_append fun c hc d hd => beq_eq_false_iff_ne.mpr (h c hc d hd),
    List.filter_append]

theorem isChain_of_isBlank_eq {l : List Char} {b : Bool} (h : ∀ c ∈ l, isBlank c = b) :
    l.IsChain fun c d => (isBlank c == isBlank d) = true := by
  refine List.Pairwise.isChain (List.pairwise_of_forall_mem_list fun c hc d hd => ?_)
  rw [h c hc, h d hd, beq_self_eq_true]

theorem words_of_isBlank {l : List Char} (h : ∀ c ∈ l, isBlank c = true) : words l = [] := by
  cases l with
  | nil => rfl
  | cons c l =>
      have hc : isBlank c = true := h c List.mem_cons_self
      rw [words, List.splitBy_of_isChain (List.cons_ne_nil c l) (isChain_of_isBlank_eq h)]
      simp [hc]

theorem words_of_not_isBlank {l : List Char} (hne : l ≠ []) (h : ∀ c ∈ l, isBlank c = false) :
    words l = [l] := by
  rw [words, List.splitBy_of_isChain hne (isChain_of_isBlank_eq h)]
  simpa using h

namespace Spells

theorem eq_words {ws : List (List Char)} {line : List Char} (h : Spells ws line) :
    ws = words line := by
  induction h with
  | blank h => rw [words_of_isBlank h]
  | @word before word after ws hbefore hne hword hend hafter ih =>
      have hstart : ∀ c ∈ (word ++ after).head?, isBlank c = false := by
        intro c hc
        rw [List.head?_append_of_ne_nil _ hne] at hc
        exact hword c (List.mem_of_mem_head? hc)
      rw [words_append, words_append, words_of_isBlank hbefore,
        words_of_not_isBlank hne hword, ← ih]
      · rfl
      · intro c hc d hd
        rw [hword c (List.mem_of_mem_getLast? hc), hend d hd]
        decide
      · intro c hc d hd
        rw [hbefore c (List.mem_of_mem_getLast? hc), hstart d hd]
        decide

theorem exists_words (line : List Char) : ∃ ws, Spells ws line := by
  induction hlength : line.length using Nat.strongRecOn generalizing line with
  | ind n ih =>
    obtain ⟨before, rest, rfl, hbefore, hstart⟩ := exists_span isBlank line
    cases rest with
    | nil => exact ⟨[], .blank (by rwa [List.append_nil])⟩
    | cons c rest =>
        have hc : isBlank c = false := hstart c rfl
        obtain ⟨word, after, hsplit, hword, hend⟩ := exists_span (!isBlank ·) (c :: rest)
        have hne : word ≠ [] := by
          rintro rfl
          rw [List.nil_append] at hsplit
          have hnot := hend c (by rw [← hsplit]; rfl)
          simp [hc] at hnot
        have hshort : after.length < n := by
          have hpos := List.length_pos_iff.mpr hne
          rw [← hlength, hsplit, List.length_append, List.length_append]
          omega
        obtain ⟨ws, hws⟩ := ih _ hshort after rfl
        refine ⟨word :: ws, hsplit ▸ .word hbefore hne ?_ ?_ hws⟩
        · simpa using hword
        · simpa using hend

end Spells

theorem spells_iff {ws : List (List Char)} {line : List Char} :
    Spells ws line ↔ ws = words line := by
  refine ⟨Spells.eq_words, ?_⟩
  rintro rfl
  obtain ⟨ws, hws⟩ := Spells.exists_words line
  exact hws.eq_words ▸ hws

/-! ## Normalised white space -/

/-- Whether a text is another one with its white space normalised: the words of each line with one
space between them, and no line for a line without words. -/
def Normalizes (cs : List Char) (text : String) : Prop :=
  ∃ lines : List (List (List Char)), List.Forall₂ Spells lines (cs.splitOn '\n') ∧
    text.toList = ['\n'].intercalate ((lines.filter (· ≠ [])).map ([' '].intercalate ·))

theorem forall₂_spells_iff {lines : List (List (List Char))} {l : List (List Char)} :
    List.Forall₂ Spells lines l ↔ lines = l.map words := by
  have hspells : Spells = fun ws line => ws = words line :=
    funext fun _ => funext fun _ => propext spells_iff
  rw [hspells, ← List.forall₂_map_right_iff, List.forall₂_eq_eq_eq]

theorem ne_nil_of_mem_words {line word : List Char} (h : word ∈ words line) : word ≠ [] :=
  List.ne_nil_of_mem_splitBy (List.mem_of_mem_filter h)

theorem intercalate_words_eq_nil_iff (line : List Char) :
    [' '].intercalate (words line) = [] ↔ words line = [] := by
  have hne : ∀ word ∈ words line, word ≠ [] := fun _ => ne_nil_of_mem_words
  cases hwords : words line with
  | nil => simp
  | cons word rest =>
      rw [hwords, List.forall_mem_cons] at hne
      cases rest with
      | nil => simpa using hne.1
      | cons next rest => simp [List.intercalate_cons_cons, hne.1]

theorem normalizes_iff {cs : List Char} {text : String} :
    Normalizes cs text ↔ text = normalizeSpace cs := by
  have hlines : ((((cs.splitOn '\n').map words).filter (· ≠ [])).map ([' '].intercalate ·)) =
      (((cs.splitOn '\n').map fun line =>
        String.ofList ([' '].intercalate (words line))).filter (· ≠ "")).map String.toList := by
    rw [List.filter_map, List.filter_map, List.map_map, List.map_map]
    have hkept : ((fun ws : List (List Char) => decide (ws ≠ [])) ∘ words) =
        ((fun s : String => decide (s ≠ "")) ∘ fun line =>
          String.ofList ([' '].intercalate (words line))) := by
      funext line
      simp only [Function.comp_apply, decide_eq_decide, ne_eq, ← String.toList_inj,
        String.toList_ofList]
      exact not_congr (intercalate_words_eq_nil_iff line).symm
    rw [hkept]
    refine List.map_congr_left fun line _ => ?_
    rw [Function.comp_apply, Function.comp_apply, String.toList_ofList]
  unfold Normalizes
  simp only [forall₂_spells_iff, exists_eq_left]
  rw [hlines, normalizeSpace, ← String.toList_inj, String.toList_intercalate]
  rfl

/-! ## Escaped texts -/

theorem Markup.strip_of_not_mem {cs : List Char} (h : '<' ∉ cs) : strip .text false cs = cs := by
  induction cs with
  | nil => rfl
  | cons c cs ih =>
      rw [List.mem_cons, not_or] at h
      rw [strip, if_neg Bool.false_ne_true, ih h.2]
      exact fun hopen => h.1 hopen.symm

theorem not_mem_escapeHtml (s : String) : '<' ∉ (escapeHtml s).toList :=
  fun h => (ne_of_mem_escapeHtml h).1 rfl

/-- The plain text of an escaped text is the text itself, with its white space normalised. -/
theorem plainText_escapeHtml_iff (s text : String) :
    plainText (escapeHtml s) = text ↔ Normalizes s.toList text := by
  rw [plainText, Markup.strip_of_not_mem (not_mem_escapeHtml s), decodeEntities_escapeHtml,
    normalizes_iff, eq_comm]

end Alerting.Text
