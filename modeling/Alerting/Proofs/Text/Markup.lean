import Alerting.Proofs.Text.Markup.Fragments
import Alerting.Proofs.Text.Markup.Names
import Alerting.Proofs.Text.PlainText
/-!
# What HTML shows

HTML is a sequence of runs of text and tags.  Its plain text shows the runs outside style sheets,
and a line break for each tag that asks for one.  A tag with a slash right behind its name, such as
`<br/>`, is not known by that name; all other tags are.
-/

namespace Alerting.Text.Markup

/-! ## Extracting text -/

def lineBreakers : List String :=
  ["br", "p", "div", "li", "tr", "h1", "h2", "h3"]

def tellingNames : List String :=
  "style" :: lineBreakers

theorem isTagName_of_mem {name : String} (h : name ∈ tellingNames) : IsTagName name := by
  have hall : ∀ other ∈ tellingNames, IsTagName other := by decide
  exact hall name h

section Extraction

/- When a tag counts as having a name. -/
variable (named : String → List Char → Prop)

namespace Fragment

def OpensStyle : Fragment → Prop
  | text _ => False
  | tag body => named "style" body ∧ body.head? ≠ some '/'

def ClosesStyle : Fragment → Prop
  | text _ => False
  | tag body => named "style" body ∧ body.head? = some '/'

end Fragment

def InStyle (before : List Fragment) : Prop :=
  ∃ us f vs, before = us ++ f :: vs ∧ f.OpensStyle named ∧ ∀ other ∈ vs, ¬other.ClosesStyle named

inductive Shows (before : List Fragment) : Fragment → List Char → Prop
  | run {run : List Char} (h : ¬InStyle named before) : Shows before (.text run) run
  | style {run : List Char} (h : InStyle named before) : Shows before (.text run) []
  | lineBreak {body : List Char} (h : ∃ name ∈ lineBreakers, named name body) :
      Shows before (.tag body) ['\n']
  | tag {body : List Char} (h : ¬∃ name ∈ lineBreakers, named name body) :
      Shows before (.tag body) []

inductive Extracts : List Fragment → List Char → Prop
  | nil : Extracts [] []
  | concat {fs : List Fragment} {f : Fragment} {cs ds : List Char} (hfs : Extracts fs cs)
      (hf : Shows named fs f ds) : Extracts (fs ++ [f]) (cs ++ ds)

/-- Whether a text is the plain text of fragments: what they show, with its entities decoded and its
white space normalised. -/
def ReadsAs (fs : List Fragment) (text : String) : Prop :=
  ∃ shown decoded, Extracts named fs shown ∧ Decodes shown decoded ∧ Normalizes decoded text

end Extraction

section

variable {named named' : String → List Char → Prop} {before fs : List Fragment} {f : Fragment}
  {cs ds : List Char}

theorem not_inStyle_nil : ¬InStyle named [] := by
  rintro ⟨us, f, vs, h, -⟩
  exact absurd h (by simp)

theorem inStyle_concat_iff :
    InStyle named (before ++ [f]) ↔
      f.OpensStyle named ∨ InStyle named before ∧ ¬f.ClosesStyle named := by
  constructor
  · rintro ⟨us, g, vs, hsplit, hopens, hopen⟩
    rcases List.eq_nil_or_concat vs with rfl | ⟨ws, last, rfl⟩
    · obtain ⟨-, hlast⟩ := List.append_inj' hsplit rfl
      obtain rfl : f = g := by simpa using hlast
      exact .inl hopens
    · rw [List.concat_eq_append] at hsplit hopen
      rw [← List.cons_append, ← List.append_assoc] at hsplit
      obtain ⟨rfl, hlast⟩ := List.append_inj' hsplit rfl
      obtain rfl : f = last := by simpa using hlast
      rw [List.forall_mem_append, List.forall_mem_singleton] at hopen
      exact .inr ⟨⟨us, g, ws, rfl, hopens, hopen.1⟩, hopen.2⟩
  · rintro (hopens | ⟨⟨us, g, vs, rfl, hopens, hopen⟩, hnot⟩)
    · exact ⟨before, f, [], rfl, hopens, fun _ h => absurd h List.not_mem_nil⟩
    · refine ⟨us, g, vs ++ [f], by simp, hopens, ?_⟩
      rw [List.forall_mem_append, List.forall_mem_singleton]
      exact ⟨hopen, hnot⟩

theorem Shows.unique (h : Shows named before f cs) (h' : Shows named before f ds) : cs = ds := by
  cases h with
  | run h => cases h' with
    | run => rfl
    | style h' => exact absurd h' h
  | style h => cases h' with
    | run h' => exact absurd h h'
    | style => rfl
  | lineBreak h => cases h' with
    | lineBreak => rfl
    | tag h' => exact absurd h h'
  | tag h => cases h' with
    | lineBreak h' => exact absurd h' h
    | tag => rfl

theorem Extracts.unique (h : Extracts named fs cs) (h' : Extracts named fs ds) : cs = ds := by
  induction h generalizing ds with
  | nil =>
      generalize hnil : ([] : List Fragment) = fs at h'
      cases h' with
      | nil => rfl
      | concat => simp at hnil
  | @concat fs f cs shown hfs hf ih =>
      generalize hconcat : fs ++ [f] = gs at h'
      cases h' with
      | nil => simp at hconcat
      | concat hgs hg =>
          obtain ⟨rfl, hlast⟩ := List.append_inj' hconcat rfl
          obtain rfl : f = _ := by simpa using hlast
          rw [ih hgs, hf.unique hg]

theorem readsAs_iff (h : Extracts named fs cs) {text : String} :
    ReadsAs named fs text ↔ text = normalizeSpace (decodeEntities cs) := by
  constructor
  · rintro ⟨shown, decoded, hshown, hdecoded, htext⟩
    rw [h.unique hshown, ← decodes_iff.mp hdecoded, ← normalizes_iff.mp htext]
  · intro htext
    exact ⟨cs, _, h, decodes_iff.mpr rfl, normalizes_iff.mpr htext⟩

end

/-! ## What a reader shows -/

namespace Fragment

/-- Whether a tag has those names that it has with no slash right behind them. -/
def IsKnownBy (named : String → List Char → Prop) : Fragment → Prop
  | text _ => True
  | tag body => ∀ name ∈ tellingNames, named name body ↔ IsNamedApart name body

/-- Whether no name that makes a difference has a slash right behind it. -/
def IsRegular : Fragment → Prop
  | text _ => True
  | tag body => ∀ name ∈ tellingNames, ¬IsGlued name body

theorem isKnownBy_apart (f : Fragment) : f.IsKnownBy IsNamedApart := by
  cases f with
  | text run => trivial
  | tag body => exact fun _ _ => Iff.rfl

theorem IsRegular.isKnownBy {f : Fragment} (h : f.IsRegular) : f.IsKnownBy IsNamed := by
  cases f with
  | text run => trivial
  | tag body =>
      intro name hname
      exact ⟨fun hnamed => hnamed.apart_or_glued.resolve_right (h name hname),
        IsNamedApart.isNamed⟩

end Fragment

section

variable {named : String → List Char → Prop} {fs : List Fragment}

theorem breaksLine_iff {body : List Char} (h : (Fragment.tag body).IsKnownBy named) :
    breaksLine body = true ↔ ∃ name ∈ lineBreakers, named name body := by
  have hname (name : String) (hmem : name ∈ lineBreakers) :
      named name body ↔ String.ofList (tagName body) = name := by
    have htelling : name ∈ tellingNames := List.mem_cons_of_mem _ hmem
    rw [h name htelling, ← tagName_eq_iff (isTagName_of_mem htelling), ← String.toList_inj,
      String.toList_ofList]
  change lineBreakers.contains (String.ofList (tagName body)) = true ↔ _
  rw [List.contains_iff_mem]
  constructor
  · exact fun hmem => ⟨_, hmem, (hname _ hmem).mpr rfl⟩
  · rintro ⟨name, hmem, hnamed⟩
    rwa [(hname name hmem).mp hnamed]

theorem inStyleAfter_iff {f : Fragment} (h : f.IsKnownBy named) (inStyle : Bool) :
    f.inStyleAfter inStyle = true ↔
      f.OpensStyle named ∨ inStyle = true ∧ ¬f.ClosesStyle named := by
  cases f with
  | text run => simp [Fragment.inStyleAfter, Fragment.OpensStyle, Fragment.ClosesStyle]
  | tag body =>
      have htelling : "style" ∈ tellingNames := List.mem_cons_self
      have hstyle : tagName body = "style".toList ↔ named "style" body :=
        (tagName_eq_iff (isTagName_of_mem htelling)).trans (h _ htelling).symm
      dsimp only [Fragment.inStyleAfter, Fragment.OpensStyle, Fragment.ClosesStyle]
      rw [Markup.inStyleAfter]
      split
      · next hname => simp [hstyle.mp hname]
      · next hname => simp [mt hstyle.mpr hname]

theorem foldl_inStyleAfter_iff (h : ∀ f ∈ fs, f.IsKnownBy named) :
    fs.foldl Fragment.inStyleAfter false = true ↔ InStyle named fs := by
  induction fs using List.reverseRecOn with
  | nil => simp [not_inStyle_nil]
  | append_singleton fs f ih =>
      rw [List.forall_mem_append, List.forall_mem_singleton] at h
      rw [List.foldl_concat, inStyleAfter_iff h.2, inStyle_concat_iff, ih h.1]

theorem shows_stripped {f : Fragment} (h : ∀ f ∈ fs, f.IsKnownBy named) (hf : f.IsKnownBy named) :
    Shows named fs f (f.stripped (fs.foldl Fragment.inStyleAfter false)) := by
  cases f with
  | text run =>
      by_cases hstyle : fs.foldl Fragment.inStyleAfter false = true
      · rw [Fragment.stripped, if_pos hstyle]
        exact .style ((foldl_inStyleAfter_iff h).mp hstyle)
      · rw [Fragment.stripped, if_neg hstyle]
        exact .run (mt (foldl_inStyleAfter_iff h).mpr hstyle)
  | tag body =>
      by_cases hbreaks : breaksLine body = true
      · rw [Fragment.stripped, if_pos hbreaks]
        exact .lineBreak ((breaksLine_iff hf).mp hbreaks)
      · rw [Fragment.stripped, if_neg hbreaks]
        exact .tag (mt (breaksLine_iff hf).mpr hbreaks)

theorem extracts_strip (hsound : ∀ f ∈ fs, f.IsSound) (h : ∀ f ∈ fs, f.IsKnownBy named) :
    Extracts named fs (strip .text false (fs.flatMap Fragment.html)) := by
  induction fs using List.reverseRecOn with
  | nil => exact .nil
  | append_singleton fs f ih =>
      rw [List.forall_mem_append, List.forall_mem_singleton] at hsound h
      have hlast := strip_fragment hsound.2 (fs.foldl Fragment.inStyleAfter false) []
      rw [List.append_nil, strip, List.append_nil] at hlast
      rw [List.flatMap_append, List.flatMap_singleton, strip_append hsound.1, hlast]
      exact .concat (ih hsound.1 h.1) (shows_stripped h.1 h.2)

theorem plainText_html_eq_iff (hsound : ∀ f ∈ fs, f.IsSound)
    (h : ∀ f ∈ fs, f.IsKnownBy named) (text : String) :
    plainText (html fs) = text ↔ ReadsAs named fs text := by
  rw [readsAs_iff (extracts_strip hsound h), plainText, html, String.toList_ofList, eq_comm]

end

/-! ## Names with a slash behind them -/

section

variable {name : String} {body : List Char}

theorem not_readsAs_html {fs : List Fragment} (hsound : ∀ f ∈ fs, f.IsSound) {cs ds : List Char}
    (hcs : Extracts IsNamed fs cs) (hds : Extracts IsNamedApart fs ds)
    (hne : normalizeSpace (decodeEntities ds) ≠ normalizeSpace (decodeEntities cs)) :
    ¬ReadsAs IsNamed fs (plainText (html fs)) := by
  have hplain : plainText (html fs) = normalizeSpace (decodeEntities ds) :=
    (plainText_html_eq_iff hsound (fun f _ => f.isKnownBy_apart) _).mpr
      ((readsAs_iff hds).mpr rfl)
  rw [readsAs_iff hcs, hplain]
  exact hne

theorem not_lineBreaker_of_style (h : IsNamed "style" body) :
    ¬∃ name ∈ lineBreakers, IsNamed name body := by
  rintro ⟨name, hname, hnamed⟩
  obtain rfl := h.unique (isTagName_of_mem List.mem_cons_self)
    (isTagName_of_mem (List.mem_cons_of_mem _ hname)) hnamed
  exact absurd hname (by decide)

theorem shows_apart_of_isGlued (hname : name ∈ tellingNames) (h : IsGlued name body)
    (before : List Fragment) : Shows IsNamedApart before (.tag body) [] := by
  refine .tag ?_
  rintro ⟨other, hmem, hapart⟩
  exact h.not_isNamedApart (isTagName_of_mem hname)
    (isTagName_of_mem (List.mem_cons_of_mem _ hmem)) hapart

theorem inStyle_apart_concat_iff (hname : name ∈ tellingNames) (h : IsGlued name body)
    (before : List Fragment) :
    InStyle IsNamedApart (before ++ [.tag body]) ↔ InStyle IsNamedApart before := by
  have hnot : ¬IsNamedApart "style" body :=
    h.not_isNamedApart (isTagName_of_mem hname) (isTagName_of_mem List.mem_cons_self)
  simp [inStyle_concat_iff, Fragment.OpensStyle, Fragment.ClosesStyle, hnot]

theorem isGlued_br : IsGlued "br" "br/".toList :=
  ⟨['/'], ⟨[], [], ['b', 'r'], by decide, by simp, by simp, by decide⟩, rfl⟩

/-- A line break that is missed. -/
theorem not_readsAs_of_lineBreaker (hsound : (Fragment.tag body).IsSound)
    (hname : name ∈ lineBreakers) (h : IsGlued name body) :
    let fs : List Fragment := [.text ['a'], .tag body, .text ['b']]
    ¬ReadsAs IsNamed fs (plainText (html fs)) := by
  intro fs
  have htelling : name ∈ tellingNames := List.mem_cons_of_mem _ hname
  have hoff (named : String → List Char → Prop) : ¬InStyle named ([] ++ [.text ['a']]) := by
    rw [inStyle_concat_iff]
    simp [not_inStyle_nil, Fragment.OpensStyle]
  have hextracts {named : String → List Char → Prop} {cs : List Char}
      (hcs : Shows named ([] ++ [.text ['a']]) (.tag body) cs)
      (houtside : ¬InStyle named ([] ++ [.text ['a']] ++ [.tag body])) :
      Extracts named fs ([] ++ ['a'] ++ cs ++ ['b']) :=
    .concat (.concat (.concat .nil (.run not_inStyle_nil)) hcs) (.run houtside)
  refine not_readsAs_html ?_ (hextracts (.lineBreak ⟨name, hname, h.isNamed⟩) ?_)
    (hextracts (shows_apart_of_isGlued htelling h _) ?_) (by decide +kernel)
  · simp only [fs, List.forall_mem_cons]
    exact ⟨by decide, hsound, by decide, by simp⟩
  · rw [inStyle_concat_iff]
    rintro (hopens | hopen)
    · exact not_lineBreaker_of_style hopens.1 ⟨name, hname, h.isNamed⟩
    · exact hoff _ hopen.1
  · rw [inStyle_apart_concat_iff htelling h]
    exact hoff _

/-- A style sheet whose start is missed. -/
theorem not_readsAs_of_opening (hsound : (Fragment.tag body).IsSound) (h : IsGlued "style" body)
    (hopening : body.head? ≠ some '/') :
    let fs : List Fragment := [.tag body, .text ['b']]
    ¬ReadsAs IsNamed fs (plainText (html fs)) := by
  intro fs
  have hcs : Extracts IsNamed fs ([] ++ [] ++ []) := by
    refine .concat (.concat .nil (.tag (not_lineBreaker_of_style h.isNamed))) (.style ?_)
    exact inStyle_concat_iff.mpr (.inl ⟨h.isNamed, hopening⟩)
  have hds : Extracts IsNamedApart fs ([] ++ [] ++ ['b']) := by
    refine .concat (.concat .nil (shows_apart_of_isGlued List.mem_cons_self h _)) (.run ?_)
    rw [inStyle_apart_concat_iff List.mem_cons_self h]
    exact not_inStyle_nil
  refine not_readsAs_html ?_ hcs hds (by decide +kernel)
  simp only [fs, List.forall_mem_cons]
  exact ⟨hsound, by decide, by simp⟩

/-- A style sheet whose end is missed. -/
theorem not_readsAs_of_closing (hsound : (Fragment.tag body).IsSound) (h : IsGlued "style" body)
    (hclosing : body.head? = some '/') :
    let fs : List Fragment := [.tag "style".toList, .tag body, .text ['b']]
    ¬ReadsAs IsNamed fs (plainText (html fs)) := by
  intro fs
  have hopens : IsNamedApart "style" "style".toList :=
    (tagName_eq_iff (isTagName_of_mem List.mem_cons_self)).mp (by decide)
  have hopen {named : String → List Char → Prop} (hnamed : named "style" "style".toList) :
      InStyle named ([] ++ [.tag "style".toList]) :=
    inStyle_concat_iff.mpr (.inl ⟨hnamed, by decide⟩)
  have hcs : Extracts IsNamed fs ([] ++ [] ++ [] ++ ['b']) := by
    refine .concat (.concat (.concat .nil (.tag (not_lineBreaker_of_style hopens.isNamed)))
      (.tag (not_lineBreaker_of_style h.isNamed))) (.run ?_)
    rw [inStyle_concat_iff]
    rintro (hopens | ⟨-, hnot⟩)
    · exact hopens.2 hclosing
    · exact hnot ⟨h.isNamed, hclosing⟩
  have hds : Extracts IsNamedApart fs ([] ++ [] ++ [] ++ []) := by
    refine .concat (.concat (.concat .nil (.tag ?_))
      (shows_apart_of_isGlued List.mem_cons_self h _)) (.style ?_)
    · rintro ⟨name, hname, hapart⟩
      exact not_lineBreaker_of_style hopens.isNamed ⟨name, hname, hapart.isNamed⟩
    · rw [inStyle_apart_concat_iff List.mem_cons_self h]
      exact hopen hopens
  refine not_readsAs_html ?_ hcs hds (by decide +kernel)
  simp only [fs, List.forall_mem_cons]
  exact ⟨by decide, hsound, by decide, by simp⟩

end

/-- HTML is read as what it shows, except that a tag does not count as having a name with a slash
right behind it.  So HTML without such tags is read as what it shows; but each tag of this kind is
misread in some HTML that has no other one. -/
theorem plainText_html_reads {fs : List Fragment} (hsound : ∀ f ∈ fs, f.IsSound) :
    (∀ text, plainText (html fs) = text ↔ ReadsAs IsNamedApart fs text) ∧
    ((∀ f ∈ fs, f.IsRegular) → ∀ text, plainText (html fs) = text ↔ ReadsAs IsNamed fs text) ∧
    ∀ f ∈ fs, ¬f.IsRegular → ∃ before after : List Fragment,
      (∀ g ∈ before ++ after, g.IsSound ∧ g.IsRegular) ∧
      ¬ReadsAs IsNamed (before ++ f :: after) (plainText (html (before ++ f :: after))) := by
  refine ⟨plainText_html_eq_iff hsound fun f _ => f.isKnownBy_apart, fun hregular => ?_,
    fun f hf hirregular => ?_⟩
  · exact plainText_html_eq_iff hsound fun f hf => (hregular f hf).isKnownBy
  · cases f with
    | text run => exact absurd trivial hirregular
    | tag body =>
        have hbody := hsound _ hf
        have htext (c : Char) (hc : c ≠ '<') :
            (Fragment.text [c]).IsSound ∧ (Fragment.text [c]).IsRegular :=
          ⟨fun hmem => hc (List.mem_singleton.mp hmem).symm, trivial⟩
        have hstyle : (Fragment.tag "style".toList).IsSound ∧
            (Fragment.tag "style".toList).IsRegular :=
          ⟨by decide, fun _ _ hglued => absurd hglued.slash_mem (by decide)⟩
        simp only [Fragment.IsRegular, not_forall, not_not] at hirregular
        obtain ⟨name, hname, hglued⟩ := hirregular
        rcases List.mem_cons.mp hname with rfl | hbreaks
        · by_cases hslash : body.head? = some '/'
          · refine ⟨[.tag "style".toList], [.text ['b']], ?_,
              not_readsAs_of_closing hbody hglued hslash⟩
            simpa using ⟨hstyle, htext 'b' (by decide)⟩
          · refine ⟨[], [.text ['b']], ?_, not_readsAs_of_opening hbody hglued hslash⟩
            simpa using htext 'b' (by decide)
        · refine ⟨[.text ['a']], [.text ['b']], ?_,
            not_readsAs_of_lineBreaker hbody hbreaks hglued⟩
          simpa using ⟨htext 'a' (by decide), htext 'b' (by decide)⟩

/-- A style sheet, a division with an attribute, and a line break with a slash right behind its
name. -/
theorem plainText_html_reads_sheetAndBreak :
    let fs : List Fragment := [.tag "STYLE media=print".toList, .text "p > x".toList,
      .tag "/style".toList, .text "a".toList, .tag "Div class=x/y".toList, .text "&lt;b".toList,
      .tag "br/".toList, .text "c".toList]
    (∀ f ∈ fs, f.IsSound) ∧ ReadsAs IsNamedApart fs "a\n<bc" ∧
      ∃ before after : List Fragment, (∀ g ∈ before ++ after, g.IsSound ∧ g.IsRegular) ∧
        ¬ReadsAs IsNamed (before ++ .tag "br/".toList :: after)
          (plainText (html (before ++ .tag "br/".toList :: after))) := by
  intro fs
  have hsound : ∀ f ∈ fs, f.IsSound := by decide
  obtain ⟨hreads, -, hmisread⟩ := plainText_html_reads hsound
  refine ⟨hsound, (hreads _).mp (by decide +kernel), hmisread _ (by simp [fs]) ?_⟩
  intro hregular
  exact hregular "br" (by decide) isGlued_br

/-- The line break is missed. -/
theorem not_forall_readsAs_isNamed :
    ¬∀ fs : List Fragment, (∀ f ∈ fs, f.IsSound) →
      ∀ text, plainText (html fs) = text ↔ ReadsAs IsNamed fs text := by
  intro h
  have hsound : ∀ f ∈ [Fragment.text ['a'], .tag "br/".toList, .text ['b']], f.IsSound := by decide
  exact not_readsAs_of_lineBreaker (by decide) (by decide) isGlued_br ((h _ hsound _).mp rfl)

end Alerting.Text.Markup
