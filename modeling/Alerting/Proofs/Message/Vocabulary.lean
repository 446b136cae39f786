import Alerting.Proofs.Dict
import Alerting.Proofs.Message.Body
/-!
# The vocabulary of templates

The tokens of a message have the same names whatever its rule and its evaluation are.  So it is
known beforehand which slots of a template are filled: those with a name of the vocabulary, and no
others.  In subjects and short messages the tokens that stand for markup are empty.
-/

namespace Alerting

open Query Rule Template

namespace Template

/-! ## Slots with known names -/

/-- What a piece of a template becomes where these names are the known ones. -/
inductive Piece.Becomes (names : List String) (tokens : Tokens) : Piece → List Char → Prop
  | char (c : Char) : Becomes names tokens (.char c) [c]
  | known {name value : String} {text : List Char} (hname : name ∈ names)
      (hvalue : tokens.get? name = some value) : Becomes names tokens (.slot name text) value.toList
  | unknown {name : String} {text : List Char} (hname : name ∉ names) :
      Becomes names tokens (.slot name text) text

/-- Whether a text is what a template becomes if every slot with one of these names is replaced by
the text under it, and no other slot is. -/
def Replaces (names : List String) (tokens : Tokens) (template text : String) : Prop :=
  ∃ ps parts, Splits template.toList ps ∧ List.Forall₂ (Piece.Becomes names tokens) ps parts ∧
    text.toList = parts.flatten

section

variable {names : List String} {tokens : Tokens}
  (h : ∀ name, tokens.contains name = true ↔ name ∈ names)

include h

theorem becomes_fill (piece : Piece) : piece.Becomes names tokens (piece.fill tokens) := by
  cases piece with
  | char c => exact .char c
  | slot name text =>
      have hname := h name
      rw [Dict.contains] at hname
      rw [Piece.fill]
      cases hvalue : tokens.get? name with
      | some value => exact .known (hname.mp (by rw [hvalue]; rfl)) hvalue
      | none => exact .unknown (mt hname.mpr (by rw [hvalue]; exact Bool.false_ne_true))

theorem replaces_fill (template : String) :
    Replaces names tokens template (fill template tokens) := by
  refine ⟨pieces template, (pieces template).map (Piece.fill tokens), splits_piecesFrom _, ?_, ?_⟩
  · rw [List.forall₂_map_right_iff, List.forall₂_same]
    exact fun piece _ => becomes_fill h piece
  · rw [fill, String.toList_ofList, List.flatMap_def]

end

end Template

namespace Message

/-! ## Names -/

def textNames : List String :=
  ["kpi", "kpi_fmt", "operator", "threshold", "threshold_low", "threshold_high", "agg", "measure",
   "xField", "xValue", "xPick", "legend", "xValueResolved", "xValuePretty", "filters",
   "filters_json", "filters_values", "filters_values_html", "source", "datasourceId"]

def vocabulary : List String :=
  textNames ++ markupNames

def IsComplete (tokens : Tokens) : Prop :=
  ∀ name, tokens.contains name = true ↔ name ∈ vocabulary

theorem map_fst_conditionTokens (c : ThresholdCondition) (pick : Pick.Resolution)
    (category : String) :
    (conditionTokens c pick category).map (·.1) = blankConditionTokens.map (·.1) :=
  rfl

theorem contains_baseTokens_iff (config : Config) (evaluation : Evaluation) (name : String) :
    (baseTokens config evaluation).contains name = true ↔ name ∈ textNames := by
  have hkeys (tokens : List (String × String))
      (htokens : tokens.map (·.1) = blankConditionTokens.map (·.1)) :
      (Dict.ofList (figureTokens config evaluation ++ tokens)).contains name = true ↔
        name ∈ textNames := by
    have hperm : ((figureTokens config evaluation ++ tokens).map (·.1)).Perm textNames := by
      rw [List.map_append, htokens]
      exact (by decide : (["kpi", "kpi_fmt", "datasourceId"] ++
        blankConditionTokens.map (·.1)).Perm textNames)
    rw [Dict.contains, Dict.get?_ofList (hperm.nodup_iff.mpr (by decide)), Dict.isSome_lookup_iff,
      hperm.mem_iff]
  unfold baseTokens
  refine hkeys _ ?_
  split
  · exact map_fst_conditionTokens ..
  · rfl

namespace IsComplete

variable {tokens : Tokens}

theorem insert (h : IsComplete tokens) {name : String} (hname : name ∈ vocabulary) (text : String) :
    IsComplete (tokens.insert name text) := by
  intro other
  rw [Dict.contains_insert_iff, h other]
  exact or_iff_right_of_imp fun heq => heq ▸ hname

theorem cardTokens (h : IsComplete tokens) (category : String) (value : Float) :
    IsComplete (Message.cardTokens tokens category value) :=
  ((h.insert (by decide) _).insert (by decide) _).insert (by decide) _

end IsComplete

/-! ## Tokens for markup -/

theorem get?_withoutMarkup (tokens : Tokens) (name : String) :
    (withoutMarkup tokens).get? name = if name ∈ markupNames then some "" else tokens.get? name :=
  Dict.get?_foldl_insert_const ..

theorem isComplete_withoutMarkup (config : Config) (evaluation : Evaluation) :
    IsComplete (withoutMarkup (baseTokens config evaluation)) := by
  intro name
  rw [vocabulary, List.mem_append, ← contains_baseTokens_iff config evaluation, Dict.contains,
    get?_withoutMarkup, Dict.contains]
  by_cases hmarkup : name ∈ markupNames
  · simp [hmarkup]
  · simp [hmarkup]

section

variable (config : Config) (evaluation : Evaluation) (table : String)
  (chart : String × Option InlineImage)

theorem isComplete_tokens_ofParts : IsComplete (ofParts config evaluation table chart).tokens := by
  intro name
  unfold ofParts
  simp only [Dict.contains_insert_iff, contains_baseTokens_iff, vocabulary, markupNames,
    List.mem_append, List.mem_cons, List.not_mem_nil, or_false]
  tauto

theorem get?_tokens_of_not_markup {name : String} (h : name ∉ markupNames) :
    (ofParts config evaluation table chart).tokens.get? name =
      (baseTokens config evaluation).get? name := by
  simp only [markupNames, List.mem_cons, List.not_mem_nil, or_false, not_or] at h
  obtain ⟨hfigure, hchart, htableImage, htable⟩ := h
  unfold ofParts
  rw [Dict.get?_insert_of_ne _ hchart, Dict.get?_insert_of_ne _ htableImage,
    Dict.get?_insert_of_ne _ htable, Dict.get?_insert_of_ne _ hfigure]

end

/-! ## Templates of a message -/

def shortTemplate (template : String) : String :=
  if Text.isBlankText template then defaultShortTemplate else template

/-- Whether a text is the block of a card in which every slot of the vocabulary is filled. -/
def IsFilledBlock (config : Config) (tokens : Tokens) (card : Breakdown.Card) (text : String) :
    Prop :=
  ∃ filled, Replaces vocabulary (cardTokens tokens card.category card.value) (cardTemplate config)
    filled ∧ text = block card filled

/-- Whether the templates of a body and its cards leave no slot of the vocabulary in it. -/
def IsFilledBody (config : Config) (tokens : Tokens) (cards : List Breakdown.Card)
    (html : String) : Prop :=
  ∃ base blocks, Replaces vocabulary tokens (bodyTemplate config) base ∧
    List.Forall₂ (IsFilledBlock config tokens) cards blocks ∧ html = base ++ blockList blocks

theorem isFilledBody_htmlWithCards {tokens : Tokens} (h : IsComplete tokens) (config : Config)
    (cards : List Breakdown.Card) :
    IsFilledBody config tokens cards
      (htmlWithCards (bodyTemplate config) config.cardTemplate tokens cards) := by
  refine ⟨_, _, replaces_fill h _, ?_, htmlWithCards_eq _ config tokens cards⟩
  rw [List.forall₂_map_right_iff, List.forall₂_same]
  exact fun card _ => ⟨_, replaces_fill (h.cardTokens _ _) _, rfl⟩

theorem baseTokens_render (config : Config) (evaluation : Evaluation) (render : Render) :
    baseTokens { config with render } evaluation = baseTokens config evaluation :=
  rfl

theorem texts_of_make {τ : Type} (supplier : (m : Material) → τ → m.Reply × τ) (config : Config)
    (evaluation : Evaluation) (camera : Option Shot) (t : τ) :
    let m := ((make config evaluation camera).run supplier t).1
    m.textTokens = withoutMarkup (baseTokens config evaluation) ∧ m.cards = cardsOf evaluation := by
  intro m
  obtain ⟨table, chart, hm, -⟩ := exists_parts supplier config evaluation camera t
  unfold m
  rw [hm]
  exact ⟨rfl, rfl⟩

/-- The tokens of a message are those of the vocabulary, whatever its rule and its evaluation are,
and so every slot of a template with a name of the vocabulary is filled.  In subjects and short
messages the tokens for markup are empty, and nothing depends on what is to be shown as a table or a
picture. -/
theorem tokens_isComplete {τ : Type} (supplier : (m : Material) → τ → m.Reply × τ)
    (config : Config) (evaluation : Evaluation) (camera : Option Shot) (t : τ) :
    let m := ((make config evaluation camera).run supplier t).1
    IsComplete m.tokens ∧ IsComplete m.textTokens ∧
    (∀ name, m.textTokens.get? name =
      if name ∈ markupNames then some "" else m.tokens.get? name) ∧
    m.cards = cardsOf evaluation ∧ IsFilledBody config m.tokens m.cards m.html ∧
    (∀ template, Replaces vocabulary m.textTokens template (m.subject template)) ∧
    (∀ template, ∃ base, Replaces vocabulary m.textTokens (shortTemplate template) base ∧
      m.short template = base ++ String.join (m.cards.map cardLines)) ∧
    ∀ (render : Render) (supplier' : (m : Material) → τ → m.Reply × τ) (camera' : Option Shot)
      (t' : τ),
      let m' := ((make { config with render } evaluation camera').run supplier' t').1
      ∀ template,
        m'.subject template = m.subject template ∧ m'.short template = m.short template := by
  intro m
  obtain ⟨table, chart, hm, -⟩ := exists_parts supplier config evaluation camera t
  obtain ⟨htext, hcards⟩ := texts_of_make supplier config evaluation camera t
  have htokens : IsComplete m.tokens := by
    unfold m
    rw [hm]
    exact isComplete_tokens_ofParts config evaluation table chart
  have htextTokens : IsComplete m.textTokens := by
    rw [htext]
    exact isComplete_withoutMarkup config evaluation
  refine ⟨htokens, htextTokens, fun name => ?_, hcards, ?_, fun template => ?_, fun template => ?_,
    ?_⟩
  · rw [htext, get?_withoutMarkup]
    split
    · rfl
    · next hmarkup =>
      unfold m
      rw [hm, get?_tokens_of_not_markup _ _ _ _ hmarkup]
  · have hhtml : m.html =
        htmlWithCards (bodyTemplate config) config.cardTemplate m.tokens m.cards := by
      unfold m
      rw [hm]
      rfl
    rw [hhtml]
    exact isFilledBody_htmlWithCards htokens config m.cards
  · exact replaces_fill htextTokens template
  · exact ⟨_, replaces_fill htextTokens (shortTemplate template), rfl⟩
  · intro render supplier' camera' t' m' template
    obtain ⟨htext', hcards'⟩ :=
      texts_of_make supplier' { config with render } evaluation camera' t'
    rw [baseTokens_render, ← htext] at htext'
    rw [← hcards] at hcards'
    rw [subject, short, subject, short, htext', hcards']
    exact ⟨rfl, rfl⟩

end Message

end Alerting
