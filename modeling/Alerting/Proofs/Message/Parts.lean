import Alerting.Message
import Alerting.Proofs.Dialogue
/-!
# The parts of a message

A message is put together from a table, a chart and what its evaluation has to say.  Only the table
and the chart are asked for, and only the chart comes with a picture.
-/

namespace Alerting

open Query Rule

def Material.IsQuery : Material → Prop
  | .query _ => True
  | .capture .. => False

namespace Message

/-! ## Putting the parts together -/

def tablePart (config : Config) : Making String :=
  match config.render.query with
  | some q =>
    if Text.mentions "TABLE_".toList (bodyTemplate config).toList then makeTable q else pure ""
  | none => pure ""

def chartPart (config : Config) (camera : Option Shot) : Making (String × Option InlineImage) :=
  match config.render.widget with
  | some widget =>
    if Text.mentions "CHART_IMG".toList (bodyTemplate config).toList then makeChart widget camera
    else pure ("", none)
  | none => pure ("", none)

def cardsOf (evaluation : Evaluation) : List Breakdown.Card :=
  (evaluation.breakdown?.map (·.cards)).getD []

def ofParts (config : Config) (evaluation : Evaluation) (table : String)
    (chart : String × Option InlineImage) : Message :=
  let tokens := baseTokens config evaluation
  let label := (config.render.label <|> tokens.get? "source").getD ""
  let figure := figureHtml label ((tokens.get? "kpi_fmt").getD "")
  let htmlTokens :=
    (((tokens.insert "KPI_IMG" figure).insert "TABLE_HTML" table).insert "TABLE_IMG" table).insert
      "CHART_IMG" chart.1
  { html := htmlWithCards (bodyTemplate config) config.cardTemplate htmlTokens (cardsOf evaluation)
    tokens := htmlTokens
    textTokens := withoutMarkup tokens
    cards := cardsOf evaluation
    images := chart.2.toList }

theorem make_eq (config : Config) (evaluation : Evaluation) (camera : Option Shot) :
    make config evaluation camera = do
      let table ← tablePart config
      let chart ← chartPart config camera
      return ofParts config evaluation table chart := by
  -- only the branches of the two parts differ in how they are written
  unfold make tablePart chartPart
  cases config.render.query <;> cases config.render.widget <;> dsimp only
  · rfl
  · split <;> rfl
  · split <;> rfl
  · split
    · exact bind_congr fun table => by split <;> rfl
    · split <;> rfl

/-! ## The chart -/

def captures (exchanges : List ((m : Material) × m.Reply)) : List (List UInt8) :=
  exchanges.filterMap fun
    | ⟨.capture .., .ok bytes⟩ => some bytes
    | _ => none

theorem asks_tablePart (config : Config) : (tablePart config).Asks Material.IsQuery := by
  unfold tablePart
  split
  · split
    · refine Dialogue.Asks.bind (Dialogue.asks_put trivial) fun answer => ?_
      cases answer <;> exact Dialogue.asks_pure _
    · exact Dialogue.asks_pure _
  · exact Dialogue.asks_pure _

def ofCapture : Except Failure (List UInt8) → String × Option InlineImage
  | .ok bytes => (chartHtml, some ⟨chartContentId, "image/png", bytes⟩)
  | .error _ => (missing "chart", none)

section Chart

variable {τ : Type} (supplier : (m : Material) → τ → m.Reply × τ)

theorem captures_of_asks {α : Type} {d : Making α} (h : d.Asks Material.IsQuery) (t : τ) :
    captures (d.exchanges supplier t) = [] := by
  refine List.filterMap_eq_nil_iff.mpr fun e he => ?_
  have hquery := h.of_mem_exchanges he
  obtain ⟨m, reply⟩ := e
  cases m with
  | query request => rfl
  | capture widget shot => exact hquery.elim

/-- What stands for the chart refers to a picture if one was taken, which then goes with it. -/
inductive ShowsChart : List (List UInt8) → String × Option InlineImage → Prop
  | unwanted : ShowsChart [] ("", none)
  | missing : ShowsChart [] (missing "chart", none)
  | taken (bytes : List UInt8) :
      ShowsChart [bytes] (chartHtml, some ⟨chartContentId, "image/png", bytes⟩)

namespace ShowsChart

variable {taken : List (List UInt8)} {chart : String × Option InlineImage}

theorem length_le (h : ShowsChart taken chart) : taken.length ≤ 1 := by
  cases h <;> simp

theorem eq_chartHtml_iff (h : ShowsChart taken chart) :
    chart.1 = chartHtml ↔ taken.length = 1 := by
  cases h with
  | unwanted => exact iff_of_false (by decide) (by decide)
  | missing => exact iff_of_false (by decide) (by decide)
  | taken bytes => exact iff_of_true rfl rfl

theorem of_nil (h : ShowsChart [] chart) : chart.1 = "" ∨ chart.1 = Message.missing "chart" := by
  cases h with
  | unwanted => exact .inl rfl
  | missing => exact .inr rfl

theorem images_eq (h : ShowsChart taken chart) :
    chart.2.toList = taken.map (⟨chartContentId, "image/png", ·⟩) := by
  cases h <;> rfl

end ShowsChart

theorem makeChart_eq (widget : WidgetRef) (shot : Shot) :
    makeChart widget (some shot) =
      ofCapture <$> Dialogue.put (A := Material.Reply) (.capture widget shot) := by
  refine bind_congr fun reply => ?_
  cases reply <;> rfl

theorem showsChart_makeChart (widget : WidgetRef) (camera : Option Shot) (t : τ) :
    ShowsChart (captures ((makeChart widget camera).exchanges supplier t))
      ((makeChart widget camera).run supplier t).1 := by
  cases camera with
  | none => exact .missing
  | some shot =>
      rw [makeChart_eq]
      change ShowsChart (captures [⟨.capture widget shot, (supplier (.capture widget shot) t).1⟩])
        (ofCapture (supplier (.capture widget shot) t).1)
      cases (supplier (.capture widget shot) t).1 with
      | ok bytes => exact .taken bytes
      | error failure => exact .missing

theorem showsChart_chartPart (config : Config) (camera : Option Shot) (t : τ) :
    ShowsChart (captures ((chartPart config camera).exchanges supplier t))
      ((chartPart config camera).run supplier t).1 := by
  unfold chartPart
  split
  · split
    · exact showsChart_makeChart ..
    · exact .unwanted
  · exact .unwanted

theorem run_make_eq (config : Config) (evaluation : Evaluation) (camera : Option Shot) (t : τ) :
    let table := (tablePart config).run supplier t
    let chart := (chartPart config camera).run supplier table.2
    (make config evaluation camera).run supplier t =
      (ofParts config evaluation table.1 chart.1, chart.2) := by
  intro table chart
  rw [make_eq, Dialogue.run_seq, Dialogue.run_seq]
  rfl

theorem exchanges_make_eq (config : Config) (evaluation : Evaluation) (camera : Option Shot)
    (t : τ) :
    let table := (tablePart config).run supplier t
    (make config evaluation camera).exchanges supplier t =
      (tablePart config).exchanges supplier t ++
        (chartPart config camera).exchanges supplier table.2 := by
  intro table
  rw [make_eq, Dialogue.exchanges_seq, Dialogue.exchanges_seq, Dialogue.exchanges_pure,
    List.append_nil]

theorem exists_parts (config : Config) (evaluation : Evaluation) (camera : Option Shot) (t : τ) :
    let making := make config evaluation camera
    ∃ table chart, (making.run supplier t).1 = ofParts config evaluation table chart ∧
      ShowsChart (captures (making.exchanges supplier t)) chart := by
  intro making
  let table := (tablePart config).run supplier t
  refine ⟨table.1, ((chartPart config camera).run supplier table.2).1, ?_, ?_⟩
  · exact congrArg Prod.fst (run_make_eq supplier config evaluation camera t)
  · have htable : captures ((tablePart config).exchanges supplier t) = [] :=
      captures_of_asks supplier (asks_tablePart config) t
    have hcaptures : captures (making.exchanges supplier t) =
        captures ((chartPart config camera).exchanges supplier table.2) := by
      rw [exchanges_make_eq, captures, List.filterMap_append]
      exact congrArg (· ++ _) htable
    rw [hcaptures]
    exact showsChart_chartPart supplier config camera table.2

end Chart

end Message

end Alerting
