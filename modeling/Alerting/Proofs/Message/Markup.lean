import Alerting.Proofs.Message.Body
import Alerting.Proofs.Numeric.Grouped
import Alerting.Proofs.Text.Entities
/-!
# The markup of cards

What a browser takes for markup in a text are its angle brackets and what stands inside tags.  The
labels of the parts of a card are escaped and add nothing to the markup of a page.  A category is
put in as it is, so the markup of a page is that of its categories between tags that do not depend
on them.
-/

namespace Alerting

open Breakdown Numeric Rule Template

namespace Message

/-! ## Reading markup -/

def tagState (inTag : Bool) (c : Char) : Bool :=
  if c = '<' then true else if c = '>' then false else inTag

def endsInTag (inTag : Bool) (cs : List Char) : Bool :=
  cs.foldl tagState inTag

/-- The angle brackets of a text and the characters inside tags; the first argument says whether the
text starts inside a tag. -/
def markupFrom : Bool → List Char → List Char
  | _, [] => []
  | inTag, c :: cs =>
    if inTag || c = '<' || c = '>' then c :: markupFrom (tagState inTag c) cs
    else markupFrom (tagState inTag c) cs

def markup (html : String) : List Char :=
  markupFrom false html.toList

theorem endsInTag_append (inTag : Bool) (cs ds : List Char) :
    endsInTag inTag (cs ++ ds) = endsInTag (endsInTag inTag cs) ds :=
  List.foldl_append

theorem markupFrom_append (inTag : Bool) (cs ds : List Char) :
    markupFrom inTag (cs ++ ds) =
      markupFrom inTag cs ++ markupFrom (endsInTag inTag cs) ds := by
  induction cs generalizing inTag with
  | nil => rfl
  | cons c cs ih =>
      rw [List.cons_append, markupFrom, markupFrom, ih]
      split <;> rfl

/-- The text has this markup, and leads from one state of the reader to the other. -/
structure Reads (before : Bool) (html : String) (tags : List Char) (after : Bool) : Prop where
  markupFrom_eq : markupFrom before html.toList = tags
  endsInTag_eq : endsInTag before html.toList = after

namespace Reads

variable {s s' s'' : Bool} {html html' : String} {tags tags' : List Char}

theorem append (h : Reads s html tags s') (h' : Reads s' html' tags' s'') :
    Reads s (html ++ html') (tags ++ tags') s'' := by
  constructor
  · rw [String.toList_append, markupFrom_append, h.markupFrom_eq, h.endsInTag_eq, h'.markupFrom_eq]
  · rw [String.toList_append, endsInTag_append, h.endsInTag_eq, h'.endsInTag_eq]

theorem join_map {ι : Type} {f : ι → String} {g : ι → List Char} (l : List ι)
    (h : ∀ i ∈ l, Reads s (f i) (g i) s) : Reads s (String.join (l.map f)) (l.flatMap g) s := by
  induction l with
  | nil => exact ⟨rfl, rfl⟩
  | cons i l ih =>
      rw [List.forall_mem_cons] at h
      rw [List.map_cons, String.join_cons, List.flatMap_cons]
      exact h.1.append (ih h.2)

theorem join_map_const {ι : Type} {f : ι → String} (h : ∀ i, Reads s (f i) tags s) (l : List ι) :
    Reads s (String.join (l.map f)) (List.replicate l.length tags).flatten s := by
  rw [← List.map_const', ← List.flatMap_def]
  exact join_map l fun i _ => h i

theorem self (html : String) : Reads false html (markup html) (endsInTag false html.toList) :=
  ⟨rfl, rfl⟩

end Reads

/-- Whether what follows a text is not inside a tag, whatever stands before the text. -/
def LeavesTag (html : String) : Prop :=
  ∀ inTag, endsInTag inTag html.toList = false

instance (html : String) : Decidable (LeavesTag html) :=
  inferInstanceAs (Decidable (∀ inTag, endsInTag inTag html.toList = false))

namespace LeavesTag

variable {html : String}

theorem reads (h : LeavesTag html) : Reads false html (markup html) false :=
  ⟨rfl, h false⟩

theorem append (h : LeavesTag html) (front : String) : LeavesTag (front ++ html) := by
  intro inTag
  rw [String.toList_append, endsInTag_append, h]

end LeavesTag

def isPlain (c : Char) : Bool :=
  c != '<' && c != '>'

theorem isPlain_iff {c : Char} : isPlain c = true ↔ c ≠ '<' ∧ c ≠ '>' := by
  simp [isPlain]

theorem Reads.of_isPlain {text : String} (h : ∀ c ∈ text.toList, isPlain c = true) :
    Reads false text [] false := by
  have hchars (cs : List Char) (h : ∀ c ∈ cs, isPlain c = true) :
      markupFrom false cs = [] ∧ endsInTag false cs = false := by
    induction cs with
    | nil => exact ⟨rfl, rfl⟩
    | cons c cs ih =>
        obtain ⟨hc, hcs⟩ := List.forall_mem_cons.mp h
        obtain ⟨hopen, hclose⟩ := isPlain_iff.mp hc
        have hstate : tagState false c = false := by rw [tagState, if_neg hopen, if_neg hclose]
        refine ⟨?_, ?_⟩
        · simp [markupFrom, hopen, hclose, hstate, (ih hcs).1]
        · rw [endsInTag, List.foldl_cons, hstate]
          exact (ih hcs).2
  exact ⟨(hchars _ h).1, (hchars _ h).2⟩

theorem isPlain_of_mem_escapeHtml (text : String) :
    ∀ c ∈ (Text.escapeHtml text).toList, isPlain c = true :=
  fun _ hc => isPlain_iff.mpr (Text.ne_of_mem_escapeHtml hc)

theorem isPlain_of_isDigit {c : Char} (h : c.isDigit = true) : isPlain c = true := by
  refine isPlain_iff.mpr ⟨?_, ?_⟩
  · rintro rfl
    cases h
  · rintro rfl
    cases h

theorem isPlain_of_mem_groupedFigure (value : Float) :
    ∀ c ∈ (groupedFigure value).toList, isPlain c = true := by
  unfold groupedFigure
  split
  · intro c hc
    rcases mem_groupedInt c hc with hdigit | rfl | rfl
    · exact isPlain_of_isDigit hdigit
    · decide
    · decide
  · exact List.all_eq_true.mp (by decide)

/-! ## The markup of a card -/

def cardHead (isMatch : Bool) : String :=
  "\n  <div class=\"" ++ (if isMatch then "vigil-card vigil-card-matched" else "vigil-card") ++
    "\"><strong>"

theorem leavesTag_cardHead (isMatch : Bool) : LeavesTag (cardHead isMatch) := by
  cases isMatch <;> decide

def cardTail (value : Float) (parts : List Part) : String :=
  "</strong>: " ++ groupedFigure value ++ (partsHtml parts ++ "\n  </div>")

theorem pieces_defaultCardTemplate :
    pieces defaultCardTemplate =
      "<strong>".toList.map .char ++ .slot "legend" (slot "legend").toList ::
        ("</strong>: ".toList.map .char ++ [.slot "kpi_fmt" (slot "kpi_fmt").toList]) := by
  decide +kernel

theorem fill_defaultCardTemplate (tokens : Tokens) (category : String) (value : Float) :
    fill defaultCardTemplate (cardTokens tokens category value) =
      "<strong>" ++ category ++ ("</strong>: " ++ groupedFigure value) := by
  have hlegend : (cardTokens tokens category value).get? "legend" = some category := by
    unfold cardTokens
    rw [Dict.get?_insert_of_ne _ (by decide), Dict.get?_insert_of_ne _ (by decide),
      Dict.get?_insert_self]
  have hfigure : (cardTokens tokens category value).get? "kpi_fmt" = some (groupedFigure value) :=
    Dict.get?_insert_self ..
  have hchars (cs : List Char) (tokens : Tokens) :
      (cs.map Piece.char).flatMap (Piece.fill tokens) = cs := by
    rw [List.flatMap_map]
    exact List.flatMap_singleton' cs
  rw [fill, pieces_defaultCardTemplate, ← String.toList_inj, String.toList_ofList]
  simp only [List.flatMap_append, List.flatMap_cons, List.flatMap_nil, hchars, Piece.fill, hlegend,
    hfigure, String.toList_append, List.append_nil, List.append_assoc]

theorem cardHtml_default (tokens : Tokens) (card : Card) :
    cardHtml defaultCardTemplate tokens card =
      cardHead card.isMatch ++ card.category ++ cardTail card.value card.parts := by
  unfold cardHtml cardHead cardTail
  rw [fill_defaultCardTemplate]
  simp only [String.append_assoc]
  rfl

def partsMarkup (count : Nat) : List Char :=
  if count = 0 then []
  else
    "<ol class=\"vigil-card-children\">".toList ++
      ((List.replicate count "<li></li>".toList).flatten ++ "</ol>".toList)

/-- The markup of a card: that of its category between tags that no text of the card has a part
in. -/
def cardMarkup (card : Card) : List Char :=
  markup (cardHead card.isMatch) ++ markup card.category ++
    ("</strong>".toList ++ (partsMarkup card.parts.length ++ "</div>".toList))

/-- Whether two cards differ in nothing but their texts and figures. -/
def SameShape (card card' : Card) : Prop :=
  card.isMatch = card'.isMatch ∧ card.parts.length = card'.parts.length

theorem cardMarkup_eq_iff {card card' : Card} (h : SameShape card card') :
    cardMarkup card = cardMarkup card' ↔ markup card.category = markup card'.category := by
  unfold cardMarkup
  rw [h.1, h.2, List.append_left_inj, List.append_right_inj]

theorem reads_partHtml (part : Part) : Reads false (partHtml part) "<li></li>".toList false := by
  have hopen : Reads false "\n      <li>" "<li>".toList false := ⟨by decide, by decide⟩
  have hcolon : Reads false ": " [] false := ⟨by decide, by decide⟩
  have hclose : Reads false "</li>" "</li>".toList false := ⟨by decide, by decide⟩
  have hlabel := Reads.of_isPlain (isPlain_of_mem_escapeHtml part.label)
  have hvalue := Reads.of_isPlain (isPlain_of_mem_groupedFigure part.value)
  exact (((hopen.append hlabel).append hcolon).append hvalue).append hclose

theorem reads_partsHtml (parts : List Part) :
    Reads false (partsHtml parts) (partsMarkup parts.length) false := by
  cases parts with
  | nil => exact ⟨rfl, rfl⟩
  | cons part parts =>
      have hopen : Reads false "\n    <ol class=\"vigil-card-children\">"
          "<ol class=\"vigil-card-children\">".toList false := ⟨by decide, by decide⟩
      have hclose : Reads false "\n    </ol>" "</ol>".toList false := ⟨by decide, by decide⟩
      have hparts := Reads.join_map_const reads_partHtml (part :: parts)
      have hlist := (hopen.append hparts).append hclose
      rw [List.append_assoc] at hlist
      exact hlist

theorem reads_cardHtml (tokens : Tokens) (card : Card) :
    Reads false (cardHtml defaultCardTemplate tokens card) (cardMarkup card) false := by
  have hhead := (leavesTag_cardHead card.isMatch).reads
  -- the tag behind the category is read as one even if the category ends inside a tag
  have hclose (inTag : Bool) : Reads inTag "</strong>: " "</strong>".toList false := by
    cases inTag <;> exact ⟨by decide, by decide⟩
  have hfigure := Reads.of_isPlain (isPlain_of_mem_groupedFigure card.value)
  have hend : Reads false "\n  </div>" "</div>".toList false := ⟨by decide, by decide⟩
  have htail (inTag : Bool) : Reads inTag (cardTail card.value card.parts)
      ("</strong>".toList ++ (partsMarkup card.parts.length ++ "</div>".toList)) false := by
    have h := ((hclose inTag).append hfigure).append ((reads_partsHtml card.parts).append hend)
    rwa [List.append_nil] at h
  rw [cardHtml_default]
  exact (hhead.append (.self card.category)).append (htail _)

/-! ## The markup of a page -/

section Page

variable {config : Config} (h : cardTemplate config = defaultCardTemplate) (base : String)
  (tokens : Tokens)

include h

theorem htmlWithCards_default {cards : List Card} (hne : cards ≠ []) :
    htmlWithCards base config.cardTemplate tokens cards =
      fill base tokens ++ "\n<div class=\"vigil-cards\">" ++
        (String.join (cards.map (cardHtml defaultCardTemplate tokens)) ++ "\n</div>") := by
  have hnot : (cards.map (cardHtml defaultCardTemplate tokens)).isEmpty = false := by
    rw [List.isEmpty_map, List.isEmpty_eq_false_iff]
    exact hne
  rw [htmlWithCards_eq, h, blockList, hnot]
  simp only [Bool.false_eq_true, if_false, String.append_assoc]

theorem markup_htmlWithCards {cards : List Card} (hne : cards ≠ []) :
    markup (htmlWithCards base config.cardTemplate tokens cards) =
      markup (fill base tokens ++ "\n<div class=\"vigil-cards\">") ++
        (cards.flatMap cardMarkup ++ "</div>".toList) := by
  have hdiv : LeavesTag "\n<div class=\"vigil-cards\">" := by decide
  have hopen := (hdiv.append (fill base tokens)).reads
  have hclose : Reads false "\n</div>" "</div>".toList false := ⟨by decide, by decide⟩
  have hcards := Reads.join_map cards fun card _ => reads_cardHtml tokens card
  rw [htmlWithCards_default h base tokens hne]
  exact (hopen.append (hcards.append hclose)).markupFrom_eq

theorem markup_page_eq_iff (before after : List Card) {card card' : Card}
    (hshape : SameShape card card') :
    markup (htmlWithCards base config.cardTemplate tokens (before ++ card :: after)) =
        markup (htmlWithCards base config.cardTemplate tokens (before ++ card' :: after)) ↔
      markup card.category = markup card'.category := by
  rw [markup_htmlWithCards h base tokens (by simp), markup_htmlWithCards h base tokens (by simp),
    List.append_right_inj, List.append_left_inj, List.flatMap_append, List.flatMap_append,
    List.append_right_inj, List.flatMap_cons, List.flatMap_cons, List.append_left_inj]
  exact cardMarkup_eq_iff hshape

theorem markup_page_eq_of_forall₂ {cards cards' : List Card}
    (hcards : List.Forall₂ (fun card card' => SameShape card card' ∧
      markup card.category = markup card'.category) cards cards') :
    markup (htmlWithCards base config.cardTemplate tokens cards) =
      markup (htmlWithCards base config.cardTemplate tokens cards') := by
  have hmarkup : cards.flatMap cardMarkup = cards'.flatMap cardMarkup := by
    induction hcards with
    | nil => rfl
    | cons hcard hrest ih =>
        rw [List.flatMap_cons, List.flatMap_cons, ih, (cardMarkup_eq_iff hcard.1).mpr hcard.2]
  cases hcards with
  | nil => rfl
  | cons hcard hrest =>
      calc
        _ = _ := markup_htmlWithCards h base tokens (List.cons_ne_nil _ _)
        _ = _ := by rw [hmarkup]
        _ = _ := (markup_htmlWithCards h base tokens (List.cons_ne_nil _ _)).symm

/-- What is put into one card stands as it is put in there between other texts of the page. -/
theorem exists_page_eq (before after : List Card) {card : String → Card} {f : String → String}
    {front back : String}
    (hcard : ∀ text, cardHtml defaultCardTemplate tokens (card text) = front ++ f text ++ back) :
    ∃ head tail, ∀ text,
      htmlWithCards base config.cardTemplate tokens (before ++ card text :: after) =
        (head ++ front) ++ f text ++ tail := by
  let blocks (cards : List Card) := String.join (cards.map (cardHtml defaultCardTemplate tokens))
  refine ⟨fill base tokens ++ "\n<div class=\"vigil-cards\">" ++ blocks before,
    back ++ blocks after ++ "\n</div>", fun text => ?_⟩
  rw [htmlWithCards_default h base tokens (by simp), List.map_append, List.map_cons,
    String.join_append, String.join_cons, hcard]
  simp only [blocks, String.append_assoc]

end Page

theorem exists_cardHtml_label (tokens : Tokens) (card : Card) (parts parts' : List Part)
    (value : Float) : ∃ front back, LeavesTag front ∧ ∀ label,
      cardHtml defaultCardTemplate tokens { card with parts := parts ++ ⟨label, value⟩ :: parts' } =
        front ++ Text.escapeHtml label ++ back := by
  have hitem : LeavesTag "\n      <li>" := by decide
  refine ⟨cardHead card.isMatch ++ card.category ++ "</strong>: " ++ groupedFigure card.value ++
      "\n    <ol class=\"vigil-card-children\">" ++ String.join (parts.map partHtml) ++
      "\n      <li>",
    ": " ++ groupedFigure value ++ "</li>" ++ String.join (parts'.map partHtml) ++ "\n    </ol>" ++
      "\n  </div>", hitem.append _, fun label => ?_⟩
  have hsome : (parts ++ ⟨label, value⟩ :: parts').isEmpty = false := by simp
  rw [cardHtml_default, cardTail, partsHtml, hsome, List.map_append, List.map_cons,
    String.join_append, String.join_cons, partHtml]
  simp only [Bool.false_eq_true, if_false, String.append_assoc]

/-- The markup of a page does not depend on the labels in its cards, which stand escaped between
tags.  It does depend on the categories, which stand there as they are: with another category it is
the same exactly if the category has the same markup. -/
theorem markup_eq_iff_category {config : Config} (h : cardTemplate config = defaultCardTemplate)
    (base : String) (tokens : Tokens) :
    let page (cards : List Card) := htmlWithCards base config.cardTemplate tokens cards
    (∀ cards cards', List.Forall₂ (fun card card' => SameShape card card' ∧
        markup card.category = markup card'.category) cards cards' →
      markup (page cards) = markup (page cards')) ∧
    (∀ before after card card', SameShape card card' →
      (markup (page (before ++ card :: after)) = markup (page (before ++ card' :: after)) ↔
        markup card.category = markup card'.category)) ∧
    (∀ (before after : List Card) (card : Card), ∃ front back, LeavesTag front ∧
      ∀ category, page (before ++ { card with category } :: after) = front ++ category ++ back) ∧
    ∀ (before after : List Card) (card : Card) (parts parts' : List Part) (value : Float),
      ∃ front back, LeavesTag front ∧ ∀ label,
        page (before ++ { card with parts := parts ++ ⟨label, value⟩ :: parts' } :: after) =
          front ++ Text.escapeHtml label ++ back := by
  intro page
  refine ⟨fun _ _ hcards => markup_page_eq_of_forall₂ h base tokens hcards,
    fun before after _ _ hshape => markup_page_eq_iff h base tokens before after hshape,
    fun before after card => ?_, fun before after card parts parts' value => ?_⟩
  · have hcard (category : String) :
        cardHtml defaultCardTemplate tokens { card with category } =
          cardHead card.isMatch ++ category ++ cardTail card.value card.parts :=
      cardHtml_default tokens { card with category }
    obtain ⟨head, tail, hpage⟩ := exists_page_eq h base tokens before after hcard
    exact ⟨_, tail, (leavesTag_cardHead card.isMatch).append head, hpage⟩
  · obtain ⟨front, back, hfront, hcard⟩ := exists_cardHtml_label tokens card parts parts' value
    obtain ⟨head, tail, hpage⟩ := exists_page_eq h base tokens before after hcard
    exact ⟨_, tail, hfront.append head, hpage⟩

theorem markup_eq_iff_category_eastWest :
    let east : Card := ⟨"east", 5, true, [⟨"harbor", 2⟩]⟩
    let west : Card := ⟨"west", 7, true, [⟨"<hill>", 3⟩]⟩
    cardTemplate { cardTemplate := some " " } = defaultCardTemplate ∧ SameShape east west ∧
      markup (htmlWithCards "Top" (some " ") ∅ [east]) =
        markup (htmlWithCards "Top" (some " ") ∅ [west]) := by
  intro east west
  have htemplate : cardTemplate { cardTemplate := some " " } = defaultCardTemplate := rfl
  have hshape : SameShape east west := ⟨rfl, rfl⟩
  exact ⟨htemplate, hshape,
    ((markup_eq_iff_category htemplate "Top" ∅).2.1 [] [] east west hshape).mpr (by decide)⟩

/-- A category that is a tag is one in the page. -/
theorem not_forall_markup_eq :
    ¬∀ (base : String) (tokens : Tokens) (before after : List Card) (card : Card)
        (category : String), pieces base = base.toList.map .char →
      markup (htmlWithCards base none tokens (before ++ card :: after)) =
        markup (htmlWithCards base none tokens (before ++ { card with category } :: after)) := by
  intro h
  let east : Card := ⟨"east", 5, true, []⟩
  have hdefault : cardTemplate {} = defaultCardTemplate := rfl
  have hshape : SameShape east { east with category := "<b>" } := ⟨rfl, rfl⟩
  have hsame := h "Top" ∅ [] [] east "<b>" (by decide +kernel)
  have htags : markup east.category = markup "<b>" :=
    (markup_page_eq_iff hdefault "Top" ∅ [] [] hshape).mp hsame
  revert htags
  decide

end Message

end Alerting
