import Alerting.Proofs.Text.Search
import Alerting.Text.PlainText
/-!
# The names of tags

In front of the name of a tag there may be slashes and white space; behind it white space,
attributes or another slash.  A reader that takes the first word for the name knows a tag by it
unless a slash stands right behind the name.
-/

namespace Alerting.Text.Markup

def isTagNameChar (c : Char) : Bool :=
  !isBlank c && c != '/'

theorem isTagNameChar_iff {c : Char} : isTagNameChar c = true ↔ isBlank c = false ∧ c ≠ '/' := by
  simp [isTagNameChar]

theorem isTagNameChar_eq_false_iff {c : Char} :
    isTagNameChar c = false ↔ isBlank c = true ∨ c = '/' := by
  unfold isTagNameChar
  cases isBlank c <;> simp

/-! ## Letter case -/

theorem lowerChar_cases (c : Char) :
    lowerChar c = c ∨ isTagNameChar c = true ∧ isTagNameChar (lowerChar c) = true := by
  have hcapital : ∀ n < 26, isTagNameChar (Char.ofNat (65 + n)) = true ∧
      isTagNameChar (lowerChar (Char.ofNat (65 + n))) = true := by decide
  by_cases hkelvin : c = '\u212a'
  · subst hkelvin
    exact .inr (by decide)
  by_cases hletter : 65 ≤ c.toNat ∧ c.toNat ≤ 90
  · have hc : Char.ofNat (65 + (c.toNat - 65)) = c := by
      rw [Nat.add_sub_cancel' hletter.1, Char.ofNat_toNat]
    have hboth := hcapital (c.toNat - 65) (by omega)
    rw [hc] at hboth
    exact .inr hboth
  · refine .inl ?_
    rw [lowerChar, if_neg hkelvin]
    exact dif_neg hletter

theorem isBlank_lowerChar (c : Char) : isBlank (lowerChar c) = isBlank c := by
  rcases lowerChar_cases c with h | ⟨hc, hlower⟩
  · rw [h]
  · rw [(isTagNameChar_iff.mp hc).1, (isTagNameChar_iff.mp hlower).1]

theorem isTagNameChar_of_lowerChar {c : Char} (h : isTagNameChar (lowerChar c) = true) :
    isTagNameChar c = true := by
  rcases lowerChar_cases c with hc | ⟨hc, -⟩
  · rwa [← hc]
  · exact hc

/-! ## Spelling -/

def IsTagName (name : String) : Prop :=
  name.toList ≠ [] ∧ ∀ c ∈ name.toList, isTagNameChar c = true

instance (name : String) : Decidable (IsTagName name) :=
  decidable_of_iff (name.toList ≠ [] ∧ name.toList.all isTagNameChar = true)
    (and_congr_right' List.all_eq_true)

theorem IsTagName.of_lower {name : String} (hname : IsTagName name) {word : List Char}
    (hword : word.map lowerChar = name.toList) : ∀ c ∈ word, isTagNameChar c = true := by
  intro c hc
  refine isTagNameChar_of_lowerChar (hname.2 _ ?_)
  rw [← hword]
  exact List.mem_map_of_mem hc

/-- Whether a tag spells a name in any letter case, with this text behind it. -/
def Spelled (name : String) (body rest : List Char) : Prop :=
  ∃ slashes blanks word, body = slashes ++ (blanks ++ (word ++ rest)) ∧
    (∀ c ∈ slashes, c = '/') ∧ (∀ c ∈ blanks, isBlank c = true) ∧
    word.map lowerChar = name.toList

/-- Whether a tag has this name: behind it there is nothing, white space, or a slash. -/
def IsNamed (name : String) (body : List Char) : Prop :=
  ∃ rest, Spelled name body rest ∧ ∀ c ∈ rest.head?, isBlank c = true ∨ c = '/'

/-- Whether a tag has this name, and no slash right behind it. -/
def IsNamedApart (name : String) (body : List Char) : Prop :=
  ∃ rest, Spelled name body rest ∧ ∀ c ∈ rest.head?, isBlank c = true

/-- Whether a tag has this name, and a slash right behind it. -/
def IsGlued (name : String) (body : List Char) : Prop :=
  ∃ rest, Spelled name body rest ∧ rest.head? = some '/'

section

variable {name : String} {body rest : List Char}

theorem IsNamedApart.isNamed (h : IsNamedApart name body) : IsNamed name body := by
  obtain ⟨rest, hspelled, hrest⟩ := h
  exact ⟨rest, hspelled, fun c hc => .inl (hrest c hc)⟩

theorem IsGlued.isNamed (h : IsGlued name body) : IsNamed name body := by
  obtain ⟨rest, hspelled, hrest⟩ := h
  refine ⟨rest, hspelled, fun c hc => .inr ?_⟩
  exact (Option.some.inj (hrest.symm.trans hc)).symm

theorem IsGlued.slash_mem (h : IsGlued name body) : '/' ∈ body := by
  obtain ⟨rest, ⟨slashes, blanks, word, rfl, -⟩, hrest⟩ := h
  have hmem : '/' ∈ rest := List.mem_of_mem_head? hrest
  simp [hmem]

theorem IsNamed.apart_or_glued (h : IsNamed name body) :
    IsNamedApart name body ∨ IsGlued name body := by
  obtain ⟨rest, hspelled, hrest⟩ := h
  by_cases hslash : rest.head? = some '/'
  · exact .inr ⟨rest, hspelled, hslash⟩
  · refine .inl ⟨rest, hspelled, fun c hc => (hrest c hc).resolve_right ?_⟩
    rintro rfl
    exact hslash hc

def afterFront (body : List Char) : List Char :=
  dropBlank (body.dropWhile (· = '/'))

theorem spelled_iff (hname : IsTagName name) :
    Spelled name body rest ↔
      ∃ word, afterFront body = word ++ rest ∧ word.map lowerChar = name.toList := by
  constructor
  · rintro ⟨slashes, blanks, word, rfl, hslashes, hblanks, hword⟩
    refine ⟨word, ?_, hword⟩
    -- the name starts with a character that is neither passed over as a slash nor as white space
    obtain ⟨c, tail, rfl⟩ : ∃ c tail, word = c :: tail := by
      refine List.exists_cons_of_ne_nil ?_
      rintro rfl
      exact hname.1 hword.symm
    have hc : isTagNameChar c = true := hname.of_lower hword c List.mem_cons_self
    obtain ⟨hblank, hslash⟩ := isTagNameChar_iff.mp hc
    have hfirst : ∀ d ∈ (blanks ++ (c :: tail ++ rest)).head?, decide (d = '/') = false := by
      intro d hd
      cases blanks with
      | nil =>
          obtain rfl : c = d := Option.some.inj hd
          exact decide_eq_false hslash
      | cons b blanks =>
          obtain rfl : b = d := Option.some.inj hd
          refine decide_eq_false ?_
          rintro rfl
          exact absurd (hblanks _ List.mem_cons_self) (by decide)
    have hstart : ∀ d ∈ (c :: tail ++ rest).head?, isBlank d = false := by
      rintro _ ⟨⟩
      exact hblank
    rw [afterFront, (span_append (fun d hd => decide_eq_true (hslashes d hd)) hfirst).2, dropBlank,
      (span_append hblanks hstart).2]
  · rintro ⟨word, hbody, hword⟩
    obtain ⟨slashes, inner, rfl, hslashes, hinner⟩ := exists_span (· = '/') body
    obtain ⟨blanks, inner, rfl, hblanks, hstart⟩ := exists_span isBlank inner
    rw [afterFront, (span_append hslashes hinner).2, dropBlank, (span_append hblanks hstart).2]
      at hbody
    exact ⟨slashes, blanks, word, by rw [hbody], fun c hc => of_decide_eq_true (hslashes c hc),
      hblanks, hword⟩

/-- The name of a tag is the run of such characters as it may consist of. -/
theorem exists_spelled_iff (hname : IsTagName name) {kind : Char → Bool}
    (hkind : ∀ c, isTagNameChar c = true → kind c = true) :
    (∃ rest, Spelled name body rest ∧ ∀ c ∈ rest.head?, kind c = false) ↔
      ((afterFront body).takeWhile kind).map lowerChar = name.toList := by
  simp only [spelled_iff hname]
  constructor
  · rintro ⟨rest, ⟨word, hbody, hword⟩, hrest⟩
    have hchars : ∀ c ∈ word, kind c = true := fun c hc => hkind c (hname.of_lower hword c hc)
    rw [hbody, (span_append hchars hrest).1, hword]
  · intro hword
    obtain ⟨word, rest, hbody, hchars, hrest⟩ := exists_span kind (afterFront body)
    rw [hbody, (span_append hchars hrest).1] at hword
    exact ⟨rest, ⟨word, hbody, hword⟩, hrest⟩

theorem tagName_eq (body : List Char) :
    tagName body = ((afterFront body).takeWhile (!isBlank ·)).map lowerChar := by
  have hblank : isBlank ∘ lowerChar = isBlank := funext isBlank_lowerChar
  have hnot : (fun c => !isBlank c) ∘ lowerChar = fun c => !isBlank c :=
    funext fun c => congrArg not (isBlank_lowerChar c)
  rw [tagName, afterFront, dropBlank, List.dropWhile_map, hblank, List.takeWhile_map, hnot]
  rfl

theorem tagName_eq_iff (hname : IsTagName name) :
    tagName body = name.toList ↔ IsNamedApart name body := by
  rw [tagName_eq, ← exists_spelled_iff hname fun c hc => by simp [(isTagNameChar_iff.mp hc).1]]
  simp [IsNamedApart]

theorem IsNamed.unique {name' : String} (hname : IsTagName name) (hname' : IsTagName name')
    (h : IsNamed name body) (h' : IsNamed name' body) : name = name' := by
  simp only [IsNamed, ← isTagNameChar_eq_false_iff] at h h'
  rw [exists_spelled_iff hname fun _ => id] at h
  rw [exists_spelled_iff hname' fun _ => id] at h'
  exact String.toList_inj.mp (h.symm.trans h')

/-- With a slash right behind it the first word is no name. -/
theorem IsGlued.not_isNamedApart {name' : String} (hname : IsTagName name)
    (hname' : IsTagName name') (h : IsGlued name body) : ¬IsNamedApart name' body := by
  obtain ⟨rest, hspelled, hrest⟩ := h
  obtain ⟨word, hbody, hword⟩ := (spelled_iff hname).mp hspelled
  obtain ⟨tail, rfl⟩ := List.head?_eq_some_iff.mp hrest
  have hchars : ∀ c ∈ word, (!isBlank c) = true := by
    intro c hc
    rw [(isTagNameChar_iff.mp (hname.of_lower hword c hc)).1]
    rfl
  intro hapart
  have hslash : lowerChar '/' ∈ name'.toList := by
    rw [← (tagName_eq_iff hname').mpr hapart, tagName_eq, hbody,
      List.takeWhile_append_of_pos hchars,
      List.takeWhile_cons_of_pos (by decide)]
    exact List.mem_map_of_mem (List.mem_append_right _ List.mem_cons_self)
  exact absurd (hname'.2 _ hslash) (by decide)

end

end Alerting.Text.Markup
