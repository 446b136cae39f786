import Alerting.Proofs.Message.Body
import Alerting.Proofs.Template.Slots
/-!
# Which page is used

A configured page is searched for two spellings of the slot for the content, while filling finds
that slot with any white space in it.  Where the search finds a spelling the content is put in; a
page that has the slot in other spellings only is given up for the built-in one.
-/

namespace Alerting.Email.Branding

open Template

/-- Whether the slot for the content is spelled in a page without white space, or with one space on
each side. -/
def SpellsContent (page : String) : Prop :=
  (slot "content").toList <:+: page.toList ∨ (slot " content ").toList <:+: page.toList

theorem hasContentSlot_iff {page : String} : hasContentSlot page = true ↔ SpellsContent page := by
  simp only [hasContentSlot, contentSlots, List.any_cons, List.any_nil, Bool.or_false,
    Bool.or_eq_true, Text.mentions_iff]
  exact Iff.rfl

instance (page : String) : Decidable (SpellsContent page) :=
  decidable_of_iff _ hasContentSlot_iff

theorem SpellsContent.hasSlot {page : String} (h : SpellsContent page) :
    HasSlot page "content" := by
  rcases h with h | h
  · exact ⟨_, isSlot_of_mem_contentSlots (by simp [contentSlots]), h⟩
  · exact ⟨_, isSlot_of_mem_contentSlots (by simp [contentSlots]), h⟩

theorem page_eq_of_spellsContent (b : Branding) {t : String} (h : SpellsContent t) :
    { b with baseTemplate := some t }.page = t := by
  rw [Branding.page, Option.filter_some, if_pos (hasContentSlot_iff.mpr h), Option.getD_some]

theorem page_eq_of_not_spellsContent (b : Branding) {t : String} (h : ¬SpellsContent t) :
    { b with baseTemplate := some t }.page = Email.page := by
  rw [Branding.page, Option.filter_some, if_neg (mt hasContentSlot_iff.mp h), Option.getD_none]

theorem page_eq_of_none (b : Branding) :
    { b with baseTemplate := none }.page = Email.page := by
  rw [Branding.page, Option.filter_none, Option.getD_none]

/-- The built-in page has the slot, so it is not mistaken for one that is given up. -/
theorem page_eq_iff (b : Branding) (t : String) :
    { b with baseTemplate := some t }.page = t ↔ SpellsContent t := by
  constructor
  · intro h
    rw [← hasContentSlot_iff, ← h]
    exact hasContentSlot_usedPage _
  · exact b.page_eq_of_spellsContent

/-- The search for the slot agrees with filling about a configured page unless all slots for the
content in it have other white space than the two spellings; then the mail is that of a sender
without a page. -/
theorem page_agrees_iff (b : Branding) (t : String) :
    let custom := { b with baseTemplate := some t }
    (custom.page = t ↔ SpellsContent t) ∧
    (SpellsContent t → HasSlot t "content") ∧
    (HasSlot t "content" ↔ ∃ text, .slot "content" text ∈ pieces t) ∧
    ((custom.page = t ↔ HasSlot t "content") ↔ (HasSlot t "content" → SpellsContent t)) ∧
    ∀ year content, custom.wrap year content =
      if SpellsContent t then fill t (b.tokens year content)
      else { b with baseTemplate := none }.wrap year content := by
  intro custom
  have hpage : custom.page = t ↔ SpellsContent t := b.page_eq_iff t
  refine ⟨hpage, SpellsContent.hasSlot, hasSlot_iff_mem_pieces, ?_, fun year content => ?_⟩
  · rw [hpage]
    exact ⟨Iff.mpr, fun h => ⟨SpellsContent.hasSlot, h⟩⟩
  · change fill custom.page (b.tokens year content) = _
    split
    · next h => rw [b.page_eq_of_spellsContent h]
    · next h =>
      rw [b.page_eq_of_not_spellsContent h, ← b.page_eq_of_none]
      rfl

/-- A space on one side of the name is enough for the page to be given up. -/
theorem not_forall_page_eq_iff_hasSlot :
    ¬∀ (b : Branding) (t : String),
      { b with baseTemplate := some t }.page = t ↔ HasSlot t "content" := by
  intro h
  let t := "<main>" ++ slot "content " ++ "</main>"
  have hslot : HasSlot t "content" := by decide +kernel
  have hnot : ¬SpellsContent t := by decide +kernel
  exact hnot ((page_eq_iff default t).mp ((h default t).mpr hslot))

end Alerting.Email.Branding
