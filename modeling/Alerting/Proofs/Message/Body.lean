import Alerting.Email.Frame
import Alerting.Proofs.Message.Parts
import Alerting.Proofs.Template
import Mathlib.Data.List.Forall2
/-!
# The body of a mail

A body is made in stages: the template of the rule is filled, a block for each card is put behind
it, and the whole is put into a page.  No stage looks at what an earlier one has put in.
-/

namespace Alerting

open Template

namespace Email.Branding

/-! ## The page -/

theorem isSlot_of_mem_contentSlots {slot : String} (h : slot ∈ contentSlots) :
    IsSlot "content" slot.toList := by
  have hname : IsName "content".toList := ⟨by decide, List.all_eq_true.mp (by decide)⟩
  have hblank : ∀ c ∈ [' '], Text.isBlank c = true := List.all_eq_true.mp (by decide)
  simp only [contentSlots, List.mem_cons, List.not_mem_nil, or_false] at h
  rcases h with rfl | rfl
  · exact ⟨hname, [], [], by simp, by simp, by decide⟩
  · exact ⟨hname, [' '], [' '], hblank, hblank, by decide⟩

theorem slot_mem_pageLines : Template.slot "content" ∈ pageLines :=
  List.mem_append_right _ (by simp)

theorem hasContentSlot_page : hasContentSlot Email.page = true := by
  obtain ⟨before, after, hlines⟩ := List.append_of_mem slot_mem_pageLines
  have hpage : Email.page = String.join (before.map (· ++ "\n")) ++ Template.slot "content" ++
      ("\n" ++ String.join (after.map (· ++ "\n"))) := by
    rw [Email.page, hlines, List.map_append, List.map_cons, String.join_append, String.join_cons]
    simp only [String.append_assoc]
  refine List.any_eq_true.mpr ⟨Template.slot "content", List.mem_cons_self, ?_⟩
  rw [hpage]
  exact Text.mentions_append ..

theorem hasContentSlot_usedPage (b : Branding) : hasContentSlot b.page = true := by
  rw [Branding.page]
  cases hfilter : b.baseTemplate.filter hasContentSlot with
  | none =>
      rw [Option.getD_none]
      exact hasContentSlot_page
  | some template => exact (Option.filter_eq_some_iff.mp hfilter).2

theorem exists_slot_mem_pieces (b : Branding) :
    ∃ text, .slot "content" text ∈ pieces b.page := by
  obtain ⟨slot, hslot, hmentions⟩ := List.any_eq_true.mp b.hasContentSlot_usedPage
  exact ⟨slot.toList, mem_pieces_of_infix (isSlot_of_mem_contentSlots hslot)
    (Text.mentions_iff.mp hmentions)⟩

theorem exists_wrap_eq_append (b : Branding) (year : Int) :
    ∃ before after, Copies before ∧ Copies after ∧ ∀ content,
      b.wrap year content = before content ++ content ++ after content := by
  obtain ⟨text, htext⟩ := b.exists_slot_mem_pieces
  exact exists_fill_eq_append htext _

end Email.Branding

namespace Message

open Breakdown Email Rule

/-! ## Blocks -/

/-- The template of the cards: that of the rule unless it is blank. -/
def cardTemplate (config : Config) : String :=
  (config.cardTemplate.filter (!Text.isBlankText ·)).getD defaultCardTemplate

def block (card : Card) (text : String) : String :=
  let kind := if card.isMatch then "vigil-card vigil-card-matched" else "vigil-card"
  "\n  <div class=\"" ++ kind ++ "\">" ++ text ++ partsHtml card.parts ++ "\n  </div>"

def blockList (blocks : List String) : String :=
  if blocks.isEmpty then ""
  else "\n<div class=\"vigil-cards\">" ++ String.join blocks ++ "\n</div>"

/-- Whether a text is the block of a card: the template filled from the tokens that all cards share,
and with what the card has to say. -/
def IsBlockOf (template : String) (tokens : Tokens) (card : Card) (text : String) : Prop :=
  ∃ filled, Fills (cardTokens tokens card.category card.value) template filled ∧
    text = block card filled

theorem isBlockOf_cardHtml (template : String) (tokens : Tokens) (card : Card) :
    IsBlockOf template tokens card (cardHtml template tokens card) :=
  ⟨_, fills_iff.mpr rfl, rfl⟩

theorem htmlWithCards_eq (base : String) (config : Config) (tokens : Tokens) (cards : List Card) :
    htmlWithCards base config.cardTemplate tokens cards =
      fill base tokens ++ blockList (cards.map (cardHtml (cardTemplate config) tokens)) := by
  unfold htmlWithCards cardsHtml blockList
  rw [List.isEmpty_map]
  rfl

/-- Whether a text is a body with a block for each of these cards, in their order. -/
def IsBody (config : Config) (tokens : Tokens) (cards : List Card) (html : String) : Prop :=
  ∃ base blocks, Fills tokens (bodyTemplate config) base ∧
    List.Forall₂ (IsBlockOf (cardTemplate config) tokens) cards blocks ∧
      html = base ++ blockList blocks

theorem isBody_htmlWithCards (config : Config) (tokens : Tokens) (cards : List Card) :
    IsBody config tokens cards
      (htmlWithCards (bodyTemplate config) config.cardTemplate tokens cards) := by
  refine ⟨_, _, fills_iff.mpr rfl, ?_, htmlWithCards_eq _ config tokens cards⟩
  rw [List.forall₂_map_right_iff, List.forall₂_same]
  exact fun card _ => isBlockOf_cardHtml _ tokens card

/-! ## What is put into a body -/

theorem copies_block (card : Card) {f : String → String} (hf : Copies f) :
    Copies fun text => block card (f text) := by
  unfold block
  exact (((Copies.const _).append hf).append (.const _)).append (.const _)

theorem copies_blockList {blocks : List (String → String)} (h : ∀ f ∈ blocks, Copies f) :
    Copies fun text => blockList (blocks.map fun f => f text) := by
  unfold blockList
  simp only [List.isEmpty_map]
  split
  · exact .const ""
  · exact ((Copies.const _).append (.join_map blocks h)).append (.const _)

theorem copies_cardHtml {tokens : String → Tokens} (h : Passes tokens) (template : String)
    (card : Card) : Copies fun text => cardHtml template (tokens text) card :=
  copies_block card ((((h.insert _ _).insert _ _).insert _ _).copies_fill template)

theorem copies_cardHtml_category (template : String) (tokens : Tokens) (card : Card) :
    Copies fun category => cardHtml template tokens { card with category } := by
  have hpasses : Passes fun category => cardTokens tokens category card.value :=
    (((Passes.const tokens).insert_text _).insert _ _).insert _ _
  exact copies_block card (hpasses.copies_fill template)

/-- A body is made without a look at a text, if each of its blocks is. -/
theorem copies_htmlWithCards {tokens : String → Tokens} (h : Passes tokens) (config : Config)
    (base : String) {cards : List (String → Card)}
    (hcards : ∀ card ∈ cards, Copies fun text =>
      cardHtml (cardTemplate config) (tokens text) (card text)) :
    Copies fun text =>
      htmlWithCards base config.cardTemplate (tokens text) (cards.map fun card => card text) := by
  let blocks : List (String → String) :=
    cards.map fun card text => cardHtml (cardTemplate config) (tokens text) (card text)
  have hblocks : Copies fun text => blockList (blocks.map fun f => f text) :=
    copies_blockList (List.forall_mem_map.mpr hcards)
  simp only [blocks, List.map_map] at hblocks
  simp only [htmlWithCards_eq, List.map_map]
  exact (h.copies_fill base).append hblocks

theorem copies_htmlWithCards_token (config : Config) (base name : String) (tokens : Tokens)
    (cards : List Card) :
    Copies fun text => htmlWithCards base config.cardTemplate (tokens.insert name text) cards := by
  have hpasses := (Passes.const tokens).insert_text name
  have hcards : ∀ c ∈ cards.map fun card (_ : String) => card, Copies fun text =>
      cardHtml (cardTemplate config) (tokens.insert name text) (c text) :=
    List.forall_mem_map.mpr fun card _ => copies_cardHtml hpasses _ card
  have h := copies_htmlWithCards hpasses config base hcards
  simpa only [List.map_map, Function.comp_def, List.map_id'] using h

theorem copies_htmlWithCards_category (config : Config) (base : String) (tokens : Tokens)
    (before after : List Card) (card : Card) :
    Copies fun category => htmlWithCards base config.cardTemplate tokens
      (before ++ { card with category } :: after) := by
  let fixed (card : Card) (_ : String) : Card := card
  let cards : List (String → Card) :=
    before.map fixed ++ (fun category => { card with category }) :: after.map fixed
  have hcards : ∀ c ∈ cards, Copies fun category =>
      cardHtml (cardTemplate config) tokens (c category) := by
    simp only [cards, List.forall_mem_append, List.forall_mem_cons, List.forall_mem_map]
    exact ⟨fun other _ => .const (cardHtml _ tokens other), copies_cardHtml_category _ tokens card,
      fun other _ => .const (cardHtml _ tokens other)⟩
  have h := copies_htmlWithCards (.const tokens) config base hcards
  simpa [cards, fixed, Function.comp_def] using h

/-! ## Mails -/

/-- A body is its filled template, with a block behind it for each card if there is a breakdown.  It
stands as it is in the page, and so does everything that is put in for a token or as a category. -/
theorem isBody_make_and_copies_wrap {τ : Type} (supplier : (m : Material) → τ → m.Reply × τ)
    (config : Config) (evaluation : Evaluation) (camera : Option Shot) (t : τ) (b : Branding)
    (year : Int) :
    let m := ((make config evaluation camera).run supplier t).1
    let mail (tokens : Tokens) (cards : List Card) :=
      b.wrap year (htmlWithCards (bodyTemplate config) config.cardTemplate tokens cards)
    (match evaluation.breakdown? with
      | none => Fills m.tokens (bodyTemplate config) m.html
      | some breakdown => IsBody config m.tokens breakdown.cards m.html) ∧
    Fills (b.tokens year m.html) b.page (b.wrap year m.html) ∧
    (∃ before after, Copies before ∧ Copies after ∧ ∀ content,
      b.wrap year content = before content ++ content ++ after content) ∧
    b.wrap year m.html = mail m.tokens m.cards ∧
    (∀ name, Copies fun text => mail (m.tokens.insert name text) m.cards) ∧
    ∀ (card : Card) before after, Copies fun category =>
      mail m.tokens (before ++ { card with category } :: after) := by
  intro m mail
  obtain ⟨table, chart, hm, -⟩ := exists_parts supplier config evaluation camera t
  have hhtml : m.html =
      htmlWithCards (bodyTemplate config) config.cardTemplate m.tokens (cardsOf evaluation) := by
    unfold m
    rw [hm]
    rfl
  have hcards : m.cards = cardsOf evaluation := by
    unfold m
    rw [hm]
    rfl
  have hwrap : Copies (b.wrap year) := by
    have hpasses := (Passes.const (.ofList [("brand_name", b.nameHtml), ("logo", b.logoHtml),
      ("footer", b.footerHtml), ("year", toString year)])).insert_text "content"
    exact hpasses.copies_fill b.page
  refine ⟨?_, fills_iff.mpr rfl, b.exists_wrap_eq_append year, ?_, fun name => ?_, ?_⟩
  · cases hbreakdown : evaluation.breakdown? with
    | none =>
        have hnil : cardsOf evaluation = [] := by rw [cardsOf, hbreakdown]; rfl
        rw [hhtml, hnil, fills_iff, htmlWithCards_eq]
        exact String.append_empty
    | some breakdown =>
        have hsome : cardsOf evaluation = breakdown.cards := by rw [cardsOf, hbreakdown]; rfl
        rw [hhtml, hsome]
        exact isBody_htmlWithCards config m.tokens breakdown.cards
  · rw [hhtml, hcards]
  · exact hwrap.comp (copies_htmlWithCards_token config _ name m.tokens m.cards)
  · exact fun card before after =>
      hwrap.comp (copies_htmlWithCards_category config _ m.tokens before after card)

end Message

end Alerting
