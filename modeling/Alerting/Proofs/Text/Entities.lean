import Alerting.Proofs.Text.Search
import Alerting.Text.PlainText
/-!
# Decoding entities

Entities are decoded one kind after the other, and what is put in for one kind is searched for those
that follow.  Still nothing is decoded twice: an entity is opened by an ampersand, which is the last
character to be put in, and no other one that is put in can stand in an entity.  So all kinds are
decoded in one pass, which undoes escaping.
-/

namespace Alerting.Text

/-! ## Replacing -/

theorem replaceFrom_eq_drop (word replacement : List Char) (passed : Nat) (cs : List Char) :
    replaceFrom word replacement passed cs = replaceFrom word replacement 0 (cs.drop passed) := by
  induction cs generalizing passed with
  | nil =>
      rw [List.drop_nil]
      cases passed <;> rfl
  | cons c cs ih =>
      cases passed with
      | zero => rfl
      | succ passed => exact ih passed

theorem replaceFrom_word {word : List Char} (h : word ≠ []) (replacement cs : List Char) :
    replaceFrom word replacement 0 (word ++ cs) =
      replacement ++ replaceFrom word replacement 0 cs := by
  obtain ⟨c, tail, rfl⟩ := List.exists_cons_of_ne_nil h
  have hprefix : (c :: tail).isPrefixOf (c :: (tail ++ cs)) = true :=
    List.isPrefixOf_iff_prefix.mpr (List.prefix_append (c :: tail) cs)
  rw [List.cons_append, replaceFrom, if_pos hprefix, replaceFrom_eq_drop, List.length_cons,
    Nat.add_sub_cancel, List.drop_left]

theorem replaceFrom_cons {word : List Char} {c : Char} {cs : List Char} (h : ¬word <+: c :: cs)
    (replacement : List Char) :
    replaceFrom word replacement 0 (c :: cs) = c :: replaceFrom word replacement 0 cs := by
  rw [replaceFrom, if_neg (mt List.isPrefixOf_iff_prefix.mp h)]

theorem replaceFrom_append_of_not_mem {first : Char} {word l : List Char} (h : first ∉ l)
    (replacement cs : List Char) :
    replaceFrom (first :: word) replacement 0 (l ++ cs) =
      l ++ replaceFrom (first :: word) replacement 0 cs := by
  induction l with
  | nil => rfl
  | cons c l ih =>
      rw [List.mem_cons, not_or] at h
      rw [List.cons_append,
        replaceFrom_cons (fun hstarts => h.1 (List.cons_prefix_cons.mp hstarts).1),
        ih h.2, List.cons_append]

/-- A text that does not hold the character that is put in stood there before. -/
theorem prefix_of_prefix_replaceFrom {word : List Char} (hword : word ≠ []) {c : Char}
    {l cs : List Char} (hc : c ∉ l) (h : l <+: replaceFrom word [c] 0 cs) : l <+: cs := by
  induction l generalizing cs with
  | nil => exact List.nil_prefix
  | cons b l ih =>
      rw [List.mem_cons, not_or] at hc
      cases cs with
      | nil => exact h
      | cons d cs =>
          by_cases hstarts : word <+: d :: cs
          · obtain ⟨rest, hrest⟩ := hstarts
            rw [← hrest, replaceFrom_word hword, List.singleton_append] at h
            exact absurd (List.cons_prefix_cons.mp h).1.symm hc.1
          · rw [replaceFrom_cons hstarts] at h
            obtain ⟨rfl, htail⟩ := List.cons_prefix_cons.mp h
            exact List.cons_prefix_cons.mpr ⟨rfl, ih hc.2 htail⟩

/-! ## Entities -/

def isEntityChar (c : Char) : Bool :=
  c.isAlphanum || c = '#'

/-- An entity, and a character for it that can stand in none unless at its start. -/
structure IsEntity (word text : String) : Prop where
  exists_body : ∃ body, word.toList = '&' :: (body ++ [';']) ∧ ∀ c ∈ body, isEntityChar c = true
  exists_char : ∃ c, text.toList = [c] ∧ c ≠ ';' ∧ isEntityChar c = false

theorem isEntity_of_mem {word text : String} (h : (word, text) ∈ Markup.entities) :
    IsEntity word text := by
  let inner (word : String) : List Char := word.toList.tail.dropLast
  have hall : ∀ e ∈ Markup.entities, (e.1.toList = '&' :: (inner e.1 ++ [';']) ∧
      (inner e.1).all isEntityChar = true) ∧
      e.2.toList = [e.2.toList.headD ' '] ∧ e.2.toList.headD ' ' ≠ ';' ∧
        isEntityChar (e.2.toList.headD ' ') = false := by decide
  obtain ⟨⟨hword, hbody⟩, htext⟩ := hall _ h
  exact ⟨⟨_, hword, List.all_eq_true.mp hbody⟩, ⟨_, htext⟩⟩

namespace IsEntity

variable {word text word' text' : String}

theorem toList_ne_nil (h : IsEntity word text) : word.toList ≠ [] := by
  obtain ⟨body, hword, -⟩ := h.exists_body
  rw [hword]
  exact List.cons_ne_nil _ _

theorem not_prefix_of_ne {c : Char} (h : IsEntity word text) (hc : c ≠ '&') (cs : List Char) :
    ¬word.toList <+: c :: cs := by
  obtain ⟨body, hword, -⟩ := h.exists_body
  rw [hword]
  exact fun hstarts => hc (List.cons_prefix_cons.mp hstarts).1.symm

/-- The semicolon tells where an entity ends. -/
theorem eq_of_prefix_append (h : IsEntity word text) (h' : IsEntity word' text') {cs : List Char}
    (hstarts : word.toList <+: word'.toList ++ cs) : word = word' := by
  obtain ⟨body, hword, hbody⟩ := h.exists_body
  obtain ⟨body', hword', hbody'⟩ := h'.exists_body
  obtain ⟨rest, hrest⟩ := hstarts
  have hinner : body ++ ';' :: rest = body' ++ ';' :: cs := by
    simpa [hword, hword'] using hrest
  have hend (l : List Char) : ∀ c ∈ (';' :: l).head?, isEntityChar c = false := by
    rintro _ ⟨⟩
    decide
  have hbodies : body = body' := by
    rw [← (span_append hbody (hend rest)).1, hinner, (span_append hbody' (hend cs)).1]
  rw [← String.toList_inj, hword, hword', hbodies]

theorem replaceFrom_append_of_ne (h : IsEntity word text) (h' : IsEntity word' text')
    (hne : word ≠ word') (replacement cs : List Char) :
    replaceFrom word.toList replacement 0 (word'.toList ++ cs) =
      word'.toList ++ replaceFrom word.toList replacement 0 cs := by
  have hstart : ¬word.toList <+: word'.toList ++ cs := fun hstarts =>
    hne (h.eq_of_prefix_append h' hstarts)
  obtain ⟨body, hword, -⟩ := h.exists_body
  obtain ⟨body', hword', hbody'⟩ := h'.exists_body
  have hinside : '&' ∉ body' ++ [';'] := by
    rw [List.mem_append, List.mem_singleton, not_or]
    exact ⟨fun hmem => absurd (hbody' _ hmem) (by decide), by decide⟩
  rw [hword', List.cons_append] at hstart ⊢
  rw [replaceFrom_cons hstart, hword, replaceFrom_append_of_not_mem hinside, List.cons_append]

/-- Replacing one entity makes no other one. -/
theorem prefix_of_prefix_replaceFrom (h : IsEntity word text) (h' : IsEntity word' text')
    {c : Char} {cs : List Char}
    (hstarts : word'.toList <+: c :: replaceFrom word.toList text.toList 0 cs) :
    word'.toList <+: c :: cs := by
  obtain ⟨d, htext, hd, hchar⟩ := h.exists_char
  obtain ⟨body', hword', hbody'⟩ := h'.exists_body
  have hinside : d ∉ body' ++ [';'] := by
    rw [List.mem_append, List.mem_singleton, not_or]
    exact ⟨fun hmem => Bool.false_ne_true (hchar.symm.trans (hbody' _ hmem)), hd⟩
  rw [hword', htext] at hstarts
  rw [hword']
  obtain ⟨rfl, htail⟩ := List.cons_prefix_cons.mp hstarts
  exact List.cons_prefix_cons.mpr
    ⟨rfl, Text.prefix_of_prefix_replaceFrom h.toList_ne_nil hinside htail⟩

end IsEntity

/-! ## One kind after the other -/

section Kinds

variable {es : List (String × String)} (h : ∀ e ∈ es, IsEntity e.1 e.2)

include h

theorem foldl_replaceAll_cons {c : Char} {cs : List Char}
    (hc : ∀ e ∈ es, ¬e.1.toList <+: c :: cs) :
    es.foldl (fun cs e => replaceAll e.1 e.2 cs) (c :: cs) =
      c :: es.foldl (fun cs e => replaceAll e.1 e.2 cs) cs := by
  induction es generalizing cs with
  | nil => rfl
  | cons first rest ih =>
      obtain ⟨hfirst, hrest⟩ := List.forall_mem_cons.mp h
      obtain ⟨hcfirst, hcrest⟩ := List.forall_mem_cons.mp hc
      rw [List.foldl_cons, List.foldl_cons, replaceAll, replaceFrom_cons hcfirst]
      refine ih hrest fun e he hstarts => hcrest e he ?_
      exact hfirst.prefix_of_prefix_replaceFrom (hrest e he) hstarts

/-- An ampersand that is put in would have to be passed over by the kinds that follow. -/
theorem foldl_replaceAll_entity (hdistinct : (es.map (·.1)).Nodup)
    (hlast : es.Pairwise fun e _ => e.2 ≠ "&") {e : String × String} (he : e ∈ es)
    (cs : List Char) :
    es.foldl (fun cs e => replaceAll e.1 e.2 cs) (e.1.toList ++ cs) =
      e.2.toList ++ es.foldl (fun cs e => replaceAll e.1 e.2 cs) cs := by
  induction es generalizing cs with
  | nil => exact absurd he List.not_mem_nil
  | cons first rest ih =>
      obtain ⟨hfirst, hrest⟩ := List.forall_mem_cons.mp h
      obtain ⟨hbefore, hlast⟩ := List.pairwise_cons.mp hlast
      rw [List.map_cons, List.nodup_cons] at hdistinct
      rw [List.foldl_cons, List.foldl_cons]
      rcases List.mem_cons.mp he with rfl | he
      · obtain ⟨c, htext, -, -⟩ := hfirst.exists_char
        have hput : replaceAll e.1 e.2 (e.1.toList ++ cs) =
            e.2.toList ++ replaceAll e.1 e.2 cs :=
          replaceFrom_word hfirst.toList_ne_nil _ cs
        rw [hput, htext, List.singleton_append, List.singleton_append]
        refine foldl_replaceAll_cons hrest fun other hother => ?_
        refine (hrest other hother).not_prefix_of_ne ?_ _
        rintro rfl
        exact hbefore other hother (String.toList_inj.mp htext)
      · have hne : first.1 ≠ e.1 := fun heq => hdistinct.1 (heq ▸ List.mem_map_of_mem he)
        rw [replaceAll, hfirst.replaceFrom_append_of_ne (hrest e he) hne]
        exact ih hrest hdistinct.2 hlast he _

end Kinds

theorem decodeEntities_append {word text : String} (h : (word, text) ∈ Markup.entities)
    (cs : List Char) : decodeEntities (word.toList ++ cs) = text.toList ++ decodeEntities cs :=
  foldl_replaceAll_entity (fun _ he => isEntity_of_mem he) (by decide) (by decide) h cs

theorem decodeEntities_cons {c : Char} {cs : List Char}
    (h : ∀ e ∈ Markup.entities, ¬e.1.toList <+: c :: cs) :
    decodeEntities (c :: cs) = c :: decodeEntities cs :=
  foldl_replaceAll_cons (fun _ he => isEntity_of_mem he) h

/-! ## One pass -/

/-- How a text is decoded from the left: an entity is replaced, and a character at which none starts
stays. -/
inductive Decodes : List Char → List Char → Prop
  | nil : Decodes [] []
  | entity {word text : String} {cs ds : List Char} (h : (word, text) ∈ Markup.entities)
      (hrest : Decodes cs ds) : Decodes (word.toList ++ cs) (text.toList ++ ds)
  | char {c : Char} {cs ds : List Char} (h : ∀ e ∈ Markup.entities, ¬e.1.toList <+: c :: cs)
      (hrest : Decodes cs ds) : Decodes (c :: cs) (c :: ds)

theorem Decodes.eq_decodeEntities {cs ds : List Char} (h : Decodes cs ds) :
    ds = decodeEntities cs := by
  induction h with
  | nil => rfl
  | entity hword hrest ih => rw [decodeEntities_append hword, ih]
  | char hnone hrest ih => rw [decodeEntities_cons hnone, ih]

theorem exists_decodes (cs : List Char) : ∃ ds, Decodes cs ds := by
  induction hlength : cs.length using Nat.strongRecOn generalizing cs with
  | ind n ih =>
    cases cs with
    | nil => exact ⟨[], .nil⟩
    | cons c cs =>
        by_cases hsome : ∃ e ∈ Markup.entities, e.1.toList <+: c :: cs
        · obtain ⟨⟨word, text⟩, he, rest, hrest⟩ := hsome
          have hshort : rest.length < n := by
            have hpos := List.length_pos_iff.mpr (isEntity_of_mem he).toList_ne_nil
            rw [← hlength, ← hrest, List.length_append]
            exact Nat.lt_add_of_pos_left hpos
          obtain ⟨ds, hds⟩ := ih _ hshort rest rfl
          exact ⟨text.toList ++ ds, hrest ▸ .entity he hds⟩
        · obtain ⟨ds, hds⟩ := ih _ (by simp [← hlength]) cs rfl
          exact ⟨c :: ds, .char (fun e he hstarts => hsome ⟨e, he, hstarts⟩) hds⟩

theorem decodes_iff {cs ds : List Char} : Decodes cs ds ↔ ds = decodeEntities cs := by
  refine ⟨Decodes.eq_decodeEntities, ?_⟩
  rintro rfl
  obtain ⟨ds, hds⟩ := exists_decodes cs
  exact hds.eq_decodeEntities ▸ hds

/-! ## Escaping -/

theorem decodes_escapeHtmlChar (c : Char) {cs ds : List Char} (h : Decodes cs ds) :
    Decodes (escapeHtmlChar c ++ cs) (c :: ds) := by
  have hentity (word text : String) (hmem : (word, text) ∈ Markup.entities) :
      Decodes (word.toList ++ cs) (text.toList ++ ds) :=
    .entity hmem h
  unfold escapeHtmlChar
  split
  · exact hentity "&amp;" "&" (by decide)
  · exact hentity "&lt;" "<" (by decide)
  · exact hentity "&gt;" ">" (by decide)
  · exact hentity "&quot;" "\"" (by decide)
  · exact hentity "&#39;" "'" (by decide)
  · next hampersand _ _ _ _ =>
    exact .char (fun e he => (isEntity_of_mem he).not_prefix_of_ne hampersand cs) h

theorem decodes_escapeHtml (s : String) : Decodes (escapeHtml s).toList s.toList := by
  rw [escapeHtml, String.toList_ofList]
  induction s.toList with
  | nil => exact .nil
  | cons c cs ih =>
      rw [List.flatMap_cons]
      exact decodes_escapeHtmlChar c ih

theorem decodeEntities_escapeHtml (s : String) :
    decodeEntities (escapeHtml s).toList = s.toList :=
  (decodes_escapeHtml s).eq_decodeEntities.symm

theorem ne_of_mem_escapeHtmlChar {c d : Char} (h : d ∈ escapeHtmlChar c) : d ≠ '<' ∧ d ≠ '>' := by
  have hall : (escapeHtmlChar c).all (fun d => d != '<' && d != '>') = true := by
    unfold escapeHtmlChar
    split
    · decide
    · decide
    · decide
    · decide
    · decide
    · next hopen hclose _ _ => simpa using ⟨hopen, hclose⟩
  simpa using List.all_eq_true.mp hall d h

theorem ne_of_mem_escapeHtml {s : String} {c : Char} (h : c ∈ (escapeHtml s).toList) :
    c ≠ '<' ∧ c ≠ '>' := by
  rw [escapeHtml, String.toList_ofList, List.mem_flatMap] at h
  obtain ⟨d, -, hc⟩ := h
  exact ne_of_mem_escapeHtmlChar hc

end Alerting.Text
