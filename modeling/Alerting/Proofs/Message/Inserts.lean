import Alerting.Proofs.Message.Body
import Alerting.Proofs.Template.Slots
/-!
# Tables and charts in a message

A table or a chart is had for a message only if its body mentions it.  Cards are filled from the
same tokens, so a slot in the template of the cards is left empty where the body is silent about it.
-/

namespace Alerting

namespace Message

open Query Rule Template

inductive Insert where
  | table
  | chart
deriving DecidableEq

def tableText (q : QuerySpec) : Answer → String
  | .ok result => tableHtml result q.limit
  | .error _ => missing "table"

theorem tableHtml_ne_empty (result : Query.Result) (limit : Option Nat) :
    tableHtml result limit ≠ "" := by
  have hopen : "<table class=\"vigil-table\">\n<thead><tr>" ≠ "" := by decide
  unfold tableHtml
  simp only [ne_eq, String.append_eq_empty_iff, hopen, false_and, not_false_eq_true]

theorem missing_ne_empty (part : String) : missing part ≠ "" := by
  have hopen : "[" ≠ "" := by decide
  unfold missing
  simp only [ne_eq, String.append_eq_empty_iff, hopen, false_and, not_false_eq_true]

namespace Insert

def names : Insert → List String
  | table => ["TABLE_HTML", "TABLE_IMG"]
  | chart => ["CHART_IMG"]

def word : Insert → String
  | table => "TABLE_"
  | chart => "CHART_IMG"

def IsConfigured (config : Config) : Insert → Prop
  | table => config.render.query.isSome = true
  | chart => config.render.widget.isSome = true

def IsMentioned (config : Config) (insert : Insert) : Prop :=
  Text.mentions insert.word.toList (bodyTemplate config).toList = true

def ofMaterial : Material → Insert
  | .query _ => table
  | .capture .. => chart

/-- Whether a text is what stands for it after these exchanges, which are all that were had. -/
inductive Shows (config : Config) (camera : Option Shot) :
    Insert → List ((m : Material) × m.Reply) → String → Prop
  | table {q : QuerySpec} (hquery : config.render.query = some q) (reply : Answer) :
      Shows config camera .table [⟨.query (.aggregate (tableAggregation q)), reply⟩]
        (tableText q reply)
  | chart {widget : WidgetRef} {shot : Shot} (hwidget : config.render.widget = some widget)
      (hcamera : camera = some shot) (reply : Except Failure (List UInt8)) :
      Shows config camera .chart [⟨.capture widget shot, reply⟩] (ofCapture reply).1
  | withoutCamera {widget : WidgetRef} (hwidget : config.render.widget = some widget)
      (hcamera : camera = none) : Shows config camera .chart [] (missing "chart")

variable {config : Config} {camera : Option Shot} {insert : Insert}

namespace Shows

variable {exchanges : List ((m : Material) × m.Reply)} {text : String}

theorem length_le (h : Shows config camera insert exchanges text) : exchanges.length ≤ 1 := by
  cases h <;> simp

theorem text_ne_empty (h : Shows config camera insert exchanges text) : text ≠ "" := by
  cases h with
  | table hquery reply =>
      cases reply with
      | ok result => exact tableHtml_ne_empty result _
      | error failure => exact missing_ne_empty "table"
  | chart hwidget hcamera reply =>
      cases reply with
      | ok bytes => exact (by decide : chartHtml ≠ "")
      | error failure => exact missing_ne_empty "chart"
  | withoutCamera hwidget hcamera => exact missing_ne_empty "chart"

end Shows

/-! ## What is had -/

def part (config : Config) (camera : Option Shot) : Insert → Making String
  | table => tablePart config
  | chart => Prod.fst <$> chartPart config camera

theorem part_eq_of_not_configured (h : ¬insert.IsConfigured config) :
    insert.part config camera = pure "" := by
  cases insert with
  | table =>
      have hnone : config.render.query = none := by simpa [IsConfigured] using h
      simp only [part, tablePart, hnone]
  | chart =>
      have hnone : config.render.widget = none := by simpa [IsConfigured] using h
      simp only [part, chartPart, hnone]
      rfl

theorem part_eq_of_not_mentioned (h : ¬insert.IsMentioned config) :
    insert.part config camera = pure "" := by
  unfold IsMentioned at h
  cases insert with
  | table =>
      simp only [part, tablePart, word] at h ⊢
      split
      · rw [if_neg h]
      · rfl
  | chart =>
      simp only [part, chartPart, word] at h ⊢
      split
      · rw [if_neg h]
        rfl
      · rfl

theorem makeTable_eq (q : QuerySpec) :
    makeTable q = tableText q <$> Dialogue.put (A := Material.Reply)
      (.query (.aggregate (tableAggregation q))) := by
  refine bind_congr fun reply => ?_
  cases reply <;> rfl

theorem asks_part (config : Config) (camera : Option Shot) (insert : Insert) :
    (insert.part config camera).Asks (ofMaterial · = insert) := by
  cases insert with
  | table =>
      change (tablePart config).Asks _
      unfold tablePart
      split
      · split
        · rw [makeTable_eq]
          refine Dialogue.Asks.map ?_ _
          exact Dialogue.asks_put rfl
        · exact Dialogue.asks_pure _
      · exact Dialogue.asks_pure _
  | chart =>
      refine Dialogue.Asks.map ?_ Prod.fst
      unfold chartPart
      split
      · split
        · cases camera with
          | none => exact Dialogue.asks_pure _
          | some shot =>
              rw [makeChart_eq]
              refine Dialogue.Asks.map ?_ _
              exact Dialogue.asks_put rfl
        · exact Dialogue.asks_pure _
      · exact Dialogue.asks_pure _

section

variable {τ : Type} (supplier : (m : Material) → τ → m.Reply × τ)

theorem shows_part (hconfigured : insert.IsConfigured config)
    (hmentioned : insert.IsMentioned config) (t : τ) :
    Shows config camera insert ((insert.part config camera).exchanges supplier t)
      ((insert.part config camera).run supplier t).1 := by
  unfold IsMentioned at hmentioned
  cases insert with
  | table =>
      obtain ⟨q, hquery⟩ := Option.isSome_iff_exists.mp hconfigured
      have hpart : part config camera .table = makeTable q := by
        simp only [part, tablePart, hquery]
        exact if_pos hmentioned
      rw [hpart, makeTable_eq]
      exact .table hquery _
  | chart =>
      obtain ⟨widget, hwidget⟩ := Option.isSome_iff_exists.mp hconfigured
      have hpart : part config camera .chart = Prod.fst <$> makeChart widget camera := by
        simp only [part, chartPart, hwidget]
        exact congrArg (Prod.fst <$> ·) (if_pos hmentioned)
      rw [hpart]
      cases camera with
      | none => exact .withoutCamera hwidget rfl
      | some shot =>
          rw [makeChart_eq]
          exact .chart hwidget rfl (supplier (.capture widget shot) t).1

theorem filter_exchanges_part (t : τ) :
    ((insert.part config camera).exchanges supplier t).filter (ofMaterial ·.1 = insert) =
      (insert.part config camera).exchanges supplier t :=
  List.filter_eq_self.mpr fun _ he =>
    decide_eq_true ((asks_part config camera insert).of_mem_exchanges he)

theorem filter_exchanges_part_of_ne {other : Insert} (h : insert ≠ other) (t : τ) :
    ((other.part config camera).exchanges supplier t).filter (ofMaterial ·.1 = insert) = [] := by
  refine List.filter_eq_nil_iff.mpr fun e he hfor => h ?_
  rw [← of_decide_eq_true hfor, (asks_part config camera other).of_mem_exchanges he]

def choose (table chart : String) : Insert → String
  | .table => table
  | .chart => chart

theorem get?_tokens_ofParts (evaluation : Evaluation) (table : String)
    (chart : String × Option InlineImage) :
    ∀ name ∈ insert.names, (ofParts config evaluation table chart).tokens.get? name =
      some (insert.choose table chart.1) := by
  unfold ofParts
  cases insert with
  | table =>
      simp only [names, List.forall_mem_cons, choose]
      refine ⟨?_, ?_, fun _ h => absurd h List.not_mem_nil⟩
      · rw [Dict.get?_insert_of_ne _ (by decide), Dict.get?_insert_of_ne _ (by decide),
          Dict.get?_insert_self]
      · rw [Dict.get?_insert_of_ne _ (by decide), Dict.get?_insert_self]
  | chart =>
      simp only [names, List.forall_mem_cons, choose]
      exact ⟨Dict.get?_insert_self .., fun _ h => absurd h List.not_mem_nil⟩

theorem exists_part (config : Config) (evaluation : Evaluation) (camera : Option Shot) (t : τ)
    (insert : Insert) :
    let making := make config evaluation camera
    ∃ s, (making.exchanges supplier t).filter (ofMaterial ·.1 = insert) =
        (insert.part config camera).exchanges supplier s ∧
      ∀ name ∈ insert.names, (making.run supplier t).1.tokens.get? name =
        some ((insert.part config camera).run supplier s).1 := by
  intro making
  let table := (tablePart config).run supplier t
  have hexchanges : making.exchanges supplier t =
      (part config camera .table).exchanges supplier t ++
        (part config camera .chart).exchanges supplier table.2 := by
    unfold making
    rw [exchanges_make_eq, part, part, Dialogue.exchanges_map]
  have hrun := congrArg Prod.fst (run_make_eq supplier config evaluation camera t)
  rw [hexchanges, List.filter_append]
  cases insert with
  | table =>
      refine ⟨t, ?_, ?_⟩
      · rw [filter_exchanges_part, filter_exchanges_part_of_ne supplier (by decide),
          List.append_nil]
      · rw [hrun]
        exact get?_tokens_ofParts evaluation _ _
  | chart =>
      refine ⟨table.2, ?_, ?_⟩
      · rw [filter_exchanges_part, filter_exchanges_part_of_ne supplier (by decide),
          List.nil_append]
      · rw [hrun, part, Dialogue.run_map]
        exact get?_tokens_ofParts evaluation _ _

end

/-! ## What is used -/

theorem word_infix_of_mem_names {name : String} (h : name ∈ insert.names) :
    insert.word.toList <:+: name.toList := by
  have hmentions : ∀ other ∈ insert.names,
      Text.mentions insert.word.toList other.toList = true := by
    cases insert <;> decide
  exact Text.mentions_iff.mp (hmentions name h)

/-- Whether there are cards, with a slot for it in their template. -/
def IsUsedByCards (config : Config) (evaluation : Evaluation) (insert : Insert) : Prop :=
  cardsOf evaluation ≠ [] ∧ ∃ name ∈ insert.names, HasSlot (cardTemplate config) name

/-- Whether filling puts it into the body or into a card. -/
def IsUsed (config : Config) (evaluation : Evaluation) (insert : Insert) : Prop :=
  (∃ name ∈ insert.names, HasSlot (bodyTemplate config) name) ∨
    insert.IsUsedByCards config evaluation

/-- A body that has a slot for it mentions it. -/
theorem isMentioned_of_isUsed {evaluation : Evaluation} (h : insert.IsUsed config evaluation)
    (hcards : insert.IsUsedByCards config evaluation → insert.IsMentioned config) :
    insert.IsMentioned config := by
  rcases h with ⟨name, hname, hslot⟩ | h
  · exact hslot.mentions (word_infix_of_mem_names hname)
  · exact hcards h

theorem get?_cardTokens {name : String} (h : name ∈ insert.names) (tokens : Tokens)
    (category : String) (value : Float) :
    (cardTokens tokens category value).get? name = tokens.get? name := by
  have hne : ∀ other ∈ insert.names, other ≠ "legend" ∧ other ≠ "kpi" ∧ other ≠ "kpi_fmt" := by
    cases insert <;> decide
  obtain ⟨hlegend, hkpi, hformatted⟩ := hne name h
  unfold cardTokens
  rw [Dict.get?_insert_of_ne _ hformatted, Dict.get?_insert_of_ne _ hkpi,
    Dict.get?_insert_of_ne _ hlegend]

end Insert

/-- What the templates of a message are filled from: the one of the body, and that of each card. -/
def fillings (m : Message) : List Tokens :=
  m.tokens :: m.cards.map fun card => cardTokens m.tokens card.category card.value

/-- A table or a chart is asked for at most once, and what came of it is put into every slot for it
exactly if the body mentions it.  Otherwise the slots for it are left empty: none are in the body,
but some may be in the cards. -/
theorem shown_iff_mentioned {τ : Type} (supplier : (m : Material) → τ → m.Reply × τ)
    (config : Config) (evaluation : Evaluation) (camera : Option Shot) (t : τ)
    (insert : Insert) :
    let making := make config evaluation camera
    let m := (making.run supplier t).1
    let exchanges := (making.exchanges supplier t).filter (Insert.ofMaterial ·.1 = insert)
    IsBody config m.tokens (cardsOf evaluation) m.html ∧ m.cards = cardsOf evaluation ∧
      exchanges.length ≤ 1 ∧
      ∃ text, (∀ name ∈ insert.names, ∀ tokens ∈ m.fillings, tokens.get? name = some text) ∧
        (insert.IsConfigured config →
          (insert.Shows config camera exchanges text ↔ insert.IsMentioned config) ∧
          (text = "" ↔ ¬insert.IsMentioned config) ∧
          ((insert.IsUsed config evaluation → insert.Shows config camera exchanges text) ↔
            (insert.IsUsedByCards config evaluation → insert.IsMentioned config))) := by
  intro making m exchanges
  obtain ⟨s, (hexchanges : exchanges = _), htokens⟩ :=
    Insert.exists_part supplier config evaluation camera t insert
  let text := ((insert.part config camera).run supplier s).1
  have hm : m = ofParts config evaluation _ _ :=
    congrArg Prod.fst (run_make_eq supplier config evaluation camera t)
  have hshows (hconfigured : insert.IsConfigured config) (hmentioned : insert.IsMentioned config) :
      insert.Shows config camera exchanges text := by
    rw [hexchanges]
    exact Insert.shows_part supplier hconfigured hmentioned s
  have hnothing (h : insert.part config camera = pure "") : exchanges = [] ∧ text = "" := by
    rw [hexchanges]
    unfold text
    rw [h]
    exact ⟨rfl, rfl⟩
  have hsilent (h : ¬insert.IsMentioned config) : exchanges = [] ∧ text = "" :=
    hnothing (Insert.part_eq_of_not_mentioned h)
  refine ⟨?_, congrArg Message.cards hm, ?_, text, ?_, fun hconfigured => ?_⟩
  · rw [hm]
    exact isBody_htmlWithCards config _ _
  · by_cases hconfigured : insert.IsConfigured config
    · by_cases hmentioned : insert.IsMentioned config
      · exact (hshows hconfigured hmentioned).length_le
      · simp [(hsilent hmentioned).1]
    · simp [(hnothing (Insert.part_eq_of_not_configured hconfigured)).1]
  · intro name hname tokens htokens'
    rcases List.mem_cons.mp htokens' with rfl | hcard
    · exact htokens name hname
    · obtain ⟨card, -, rfl⟩ := List.mem_map.mp hcard
      rw [Insert.get?_cardTokens hname]
      exact htokens name hname
  · have hiff : insert.Shows config camera exchanges text ↔ insert.IsMentioned config := by
      refine ⟨fun h => ?_, hshows hconfigured⟩
      by_contra hnot
      exact h.text_ne_empty (hsilent hnot).2
    refine ⟨hiff, ⟨fun h hmentioned => ?_, fun h => (hsilent h).2⟩, ?_⟩
    · exact (hshows hconfigured hmentioned).text_ne_empty h
    · rw [hiff]
      exact ⟨fun h hcards => h (.inr hcards), fun h hused => Insert.isMentioned_of_isUsed hused h⟩

/-- A rule whose cards show a table of which its body says nothing. -/
def tableCards : Config where
  render := { query := some { source := "sales" } }
  template := some "Top"
  cardTemplate := some (slot "TABLE_HTML")

def eastEvaluation : Evaluation where
  isFired := true
  kpi := none
  timeMet := none
  threshold :=
    let cards := [⟨"east", 5, true, []⟩]
    some ⟨default, default, .firedPerCategory { fields := [], cards, selection := default }⟩

def emptyTable : (m : Material) → Unit → m.Reply × Unit
  | .query _, t => (.ok {}, t)
  | .capture .., t => (.error default, t)

/-- The cards show the table where the body shows it, if by another token. -/
theorem shown_iff_mentioned_tableCards :
    let config := { tableCards with template := some (slot "TABLE_IMG") }
    let making := make config eastEvaluation none
    let exchanges := (making.exchanges emptyTable ()).filter (Insert.ofMaterial ·.1 = .table)
    Insert.IsConfigured config .table ∧ Insert.IsUsedByCards config eastEvaluation .table ∧
      ∃ text, (making.run emptyTable ()).1.tokens.get? "TABLE_HTML" = some text ∧
        Insert.Shows config none .table exchanges text := by
  intro config making exchanges
  have hconfigured : Insert.IsConfigured config .table := rfl
  have hcards : Insert.IsUsedByCards config eastEvaluation .table :=
    ⟨by decide, "TABLE_HTML", by decide, by decide +kernel⟩
  have hmentioned : Insert.IsMentioned config .table := by
    unfold Insert.IsMentioned
    decide +kernel
  obtain ⟨-, -, -, text, htokens, hshown⟩ :=
    shown_iff_mentioned emptyTable config eastEvaluation none () .table
  exact ⟨hconfigured, hcards, text, htokens "TABLE_HTML" (by decide) _ List.mem_cons_self,
    (hshown hconfigured).1.mpr hmentioned⟩

theorem not_forall_shown_of_isUsed :
    ¬∀ (supplier : (m : Material) → Unit → m.Reply × Unit) (config : Config)
        (evaluation : Evaluation) (camera : Option Shot) (insert : Insert),
      insert.IsConfigured config → insert.IsUsed config evaluation → ∀ name ∈ insert.names,
        ((make config evaluation camera).run supplier ()).1.tokens.get? name ≠ some "" := by
  intro h
  have hused : Insert.table.IsUsed tableCards eastEvaluation :=
    .inr ⟨by decide, "TABLE_HTML", by decide, by decide +kernel⟩
  refine h emptyTable tableCards eastEvaluation none .table rfl hused "TABLE_HTML" (by decide) ?_
  decide +kernel

end Message

end Alerting
