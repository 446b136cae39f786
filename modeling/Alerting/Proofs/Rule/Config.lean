import Alerting.Proofs.Rule.Condition
import Alerting.Rule.Config
/-!
# Rule configurations read back

A configuration that was read from a text is settled: the text that is written for it is read as the
same configuration.
-/

namespace Alerting.Rule

open Json Json.Reader Query

/-! ## Triggers -/

namespace Trigger

def IsSettled (n : Nat) : Trigger → Prop
  | time c => c.IsSettled
  | threshold c => c.IsSettled n

variable {n : Nat} {t : Trigger}

theorem yields_reader (n : Nat) : Yields (Document.IsRegular (n + 3)) reader (IsSettled n) := by
  refine .tagged (fun d hd => hd.parts) ?_ _ _
  simp only [List.forall_mem_cons]
  exact ⟨(TimeCondition.yields_reader _).map fun c h => h,
    (ThresholdCondition.yields_reader n).map fun c h => h, nofun⟩

theorem reads (h : t.IsSettled n) : Reads reader t.toJson t := by
  cases t with
  | time c =>
      exact .tagged ((TimeCondition.reads h).map time) rfl (by simp [TimeCondition.fields]) _
  | threshold c =>
      exact .tagged ((ThresholdCondition.reads h).map threshold) rfl
        (by simp [ThresholdCondition.fields]) _

theorem fits_toJson (h : t.IsSettled n) : t.toJson.Fits Number.InRange (n + 3) := by
  cases t with
  | time c => exact .object (List.forall_mem_cons.mpr ⟨.string _, TimeCondition.fits_fields h n⟩)
  | threshold c =>
      exact .object (List.forall_mem_cons.mpr ⟨.string _, ThresholdCondition.fits_fields h⟩)

end Trigger

theorem Logic.reads (l : Logic) : Reads reader (.string l.name) l :=
  reads_keyword (by cases l <;> rfl)

namespace Group

structure IsSettled (n : Nat) (g : Group) : Prop where
  time : ∀ c ∈ g.time, c.IsSettled
  threshold : ∀ c ∈ g.threshold, c.IsSettled n

variable {n : Nat} {g : Group}

theorem yields_reader (n : Nat) : Yields (Document.IsRegular (n + 4)) reader (IsSettled n) := by
  refine .record (fun d hd => hd.parts) ?_ ?_ _ _
  · exact ⟨fun _ hc => absurd hc (Option.not_mem_none _),
      fun _ hc => absurd hc (Option.not_mem_none _)⟩
  · have hthreshold : Yields (Document.IsRegular (n + 3)) _ _ :=
      (ThresholdCondition.yields_reader n).of_kind fun d hd => hd.parts
    simp only [List.forall_mem_cons]
    refine ⟨.optional (TimeCondition.yields_reader _).optional ?_ _,
      .optional hthreshold.optional ?_ _, .optional (yields_any _ _) ?_ _, nofun⟩
    · exact fun v g hv h => ⟨hv, h.threshold⟩
    · exact fun v g hv h => ⟨h.time, hv⟩
    · exact fun v g _ h => ⟨h.time, h.threshold⟩

theorem reads (h : g.IsSettled n) : Reads reader g.toJson g :=
  Fills.reads (.optional (.optional fun c hc => ⟨TimeCondition.reads (h.time c hc), nofun⟩) <|
    .optional (.optional fun c hc => ⟨ThresholdCondition.reads (h.threshold c hc), nofun⟩) <|
    .optional g.logic.reads <| .nil _) (by decide) _ _

theorem fits_toJson (h : g.IsSettled n) : g.toJson.Fits Number.InRange (n + 4) := by
  have htime := fun c hc => Fits.object (TimeCondition.fits_fields (h.time c hc) n)
  have hthreshold := fun c hc => Fits.object (ThresholdCondition.fits_fields (h.threshold c hc))
  refine .object ?_
  simp only [List.forall_mem_cons]
  exact ⟨fits_elim htime, fits_elim hthreshold, .string _, nofun⟩

end Group

/-! ## Actions -/

/-- The texts are what is left of recipients: they cannot be trimmed, and none is empty. -/
def AreRecipients (texts : List String) : Prop :=
  ∀ text ∈ texts, Text.trim text = text ∧ text ≠ ""

theorem yields_recipients (kind : Document → Prop) : Yields kind recipients AreRecipients := by
  intro source d texts _ htexts text htext
  obtain ⟨found, -, htexts⟩ := exists_of_bind_eq_ok htexts
  cases htexts
  obtain ⟨htrimmed, hne⟩ := List.mem_filter.mp htext
  obtain ⟨written, -, rfl⟩ := List.mem_map.mp htrimmed
  exact ⟨Text.trim_trim written, by simpa using hne⟩

theorem reads_recipients {texts : List String} (h : AreRecipients texts) :
    Reads recipients (.ofStrings texts) texts := by
  intro source d hd
  have htrim : texts.map Text.trim = texts.map id :=
    List.map_congr_left fun text htext => (h text htext).1
  have hfilter : texts.filter (· ≠ "") = texts := by
    rw [List.filter_eq_self]
    exact fun text htext => decide_eq_true (h text htext).2
  unfold recipients
  rw [reads_strings splitRecipients texts hd]
  change Except.ok _ = _
  rw [htrim, List.map_id, hfilter]

namespace Action

def IsSettled : Action → Prop
  | email recipients _ => AreRecipients recipients
  | sms recipients _ => AreRecipients recipients

variable {a : Action}

theorem yields_reader (kind : Document → Prop) : Yields kind reader IsSettled := by
  have hparts : ∀ (kind : Document → Prop) d, kind d → ∀ part ∈ d.parts, True :=
    fun _ _ _ _ _ => trivial
  refine .tagged (hparts kind) ?_ _ _
  simp only [List.forall_mem_cons]
  refine ⟨?email, ?sms, nofun⟩
  all_goals
    refine .map (.record (hparts _) ?_ ?_ _ _)
      fun parts (h : AreRecipients parts.recipients) => h
    · exact nofun
    · simp only [List.forall_mem_cons]
      refine ⟨.mandatory (yields_recipients _) ?_ _, .optional (yields_any _ _) ?_ _, nofun⟩
      · exact fun v parts hv _ => hv
      · exact fun v parts _ h => h

theorem reads (h : a.IsSettled) : Reads reader a.toJson a := by
  have hfills : ∀ (textName : String) (recipients : List String) (text : String),
      AreRecipients recipients → Fills
        [.mandatory "to" Rule.recipients fun v (p : ActionParts) => { p with recipients := v },
         .optional textName string fun v p => { p with text := v }]
        [("to", .ofStrings recipients), (textName, .string text)] {}
        { recipients := recipients, text := text } :=
    fun _ _ text h => .mandatory (reads_recipients h) <| .optional (reads_string text) <| .nil _
  cases a with
  | email recipients subject =>
      exact .tagged (((hfills _ _ subject h).reads (by decide) _ _).map
        fun p => email p.recipients p.text) rfl (by simp) _
  | sms recipients message =>
      exact .tagged (((hfills _ _ message h).reads (by decide) _ _).map
        fun p => sms p.recipients p.text) rfl (by simp) _

theorem fits_toJson (a : Action) (n : Nat) : a.toJson.Fits Number.InRange (n + 2) := by
  cases a with
  | email recipients subject => exact .object (by simp [Fits.string, fits_ofStrings])
  | sms recipients message => exact .object (by simp [Fits.string, fits_ofStrings])

end Action

/-! ## What messages show -/

theorem RenderMode.reads (m : RenderMode) : Reads (keyword names) (.string m.name) m :=
  reads_keyword (by cases m <;> rfl)

namespace QuerySpec

structure IsSettled (n : Nat) (q : QuerySpec) : Prop where
  groupBy : ∀ text ∈ q.groupBy, Text.isBlankText text = false
  filter : q.filter.IsSettled n
  limit : ∀ k ∈ q.limit, k < Nat.pow 2 64

variable {n : Nat} {q : QuerySpec}

theorem yields_reader (n : Nat) : Yields (Document.IsRegular (n + 3)) reader (IsSettled n) := by
  refine .record (fun d hd => hd.parts) ?_ ?_ _ _
  · exact ⟨nofun, Filter.isSettled_empty n, nofun⟩
  · simp only [List.forall_mem_cons]
    refine ⟨.mandatory (yields_any _ _) ?_ _, .optional (yields_any _ _) ?_ _,
      .optional (yields_any _ _) ?_ _, .optional (yields_oneOrMany _) ?_ _,
      .optional (Filter.yields_reader n) ?_ _, .optional (yields_natural _ _).optional ?_ _, nofun⟩
    all_goals try exact fun v q _ h => ⟨h.groupBy, h.filter, h.limit⟩
    · exact fun v q hv h => ⟨hv, h.filter, h.limit⟩
    · exact fun v q hv h => ⟨h.groupBy, hv, h.limit⟩
    · exact fun v q hv h => ⟨h.groupBy, h.filter, hv⟩

theorem reads (h : q.IsSettled n) : Reads reader q.toJson q :=
  Fills.reads (.mandatory (reads_string _) <| .optional q.aggregate.reads <|
    .optional (reads_ofString? _) <| .optional (reads_oneOrMany h.groupBy) <|
    .optional (Filter.reads h.filter) <|
    .optional (.optional fun k hk => ⟨reads_natural _ (h.limit k hk), nofun⟩) <| .nil _)
    (by decide) _ _

theorem fits_toJson (h : q.IsSettled n) : q.toJson.Fits Number.InRange (n + 3) := by
  have hlimit : ∀ k ∈ q.limit, (Json.int k).Fits Number.InRange (n + 2) := by
    intro k hk
    have hbound : k < 2 ^ 64 := h.limit k hk
    exact .number ⟨by omega, by omega⟩
  refine .object ?_
  simp only [List.forall_mem_cons]
  exact ⟨.string _, .string _, fits_ofString? _, fits_ofStrings _, Filter.fits_toJson h.filter,
    fits_elim hlimit, nofun⟩

end QuerySpec

theorem WidgetRef.reads (w : WidgetRef) : Reads reader w.toJson w :=
  Fills.reads (.mandatory (reads_string _) <| .optional (reads_ofString? _) <|
    .optional (reads_ofString? _) <| .nil _) (by decide) _ _

theorem WidgetRef.fits_toJson (w : WidgetRef) (n : Nat) :
    w.toJson.Fits Number.InRange (n + 1) := by
  refine .object ?_
  simp only [List.forall_mem_cons]
  exact ⟨.string _, fits_ofString? _, fits_ofString? _, nofun⟩

namespace Render

def IsSettled (n : Nat) (r : Render) : Prop :=
  ∀ q ∈ r.query, q.IsSettled n

variable {n : Nat} {r : Render}

theorem yields_reader (n : Nat) : Yields (Document.IsRegular (n + 4)) reader (IsSettled n) := by
  refine .record (fun d hd => hd.parts) ?_ ?_ _ _
  · exact nofun
  · simp only [List.forall_mem_cons]
    refine ⟨.optional (yields_any _ _) ?_ _, .optional (QuerySpec.yields_reader n).optional ?_ _,
      .optional (yields_any _ _) ?_ _, .optional (yields_any _ _) ?_ _, nofun⟩
    all_goals try exact fun v r _ h => h
    · exact fun v r hv _ => hv

theorem reads (h : r.IsSettled n) : Reads reader r.toJson r :=
  Fills.reads (.optional r.mode.reads <|
    .optional (.optional fun q hq => ⟨QuerySpec.reads (h q hq), nofun⟩) <|
    .optional (.optional fun w _ => ⟨WidgetRef.reads w, nofun⟩) <|
    .optional (reads_ofString? _) <| .nil _) (by decide) _ _

theorem fits_toJson (h : r.IsSettled n) : r.toJson.Fits Number.InRange (n + 4) := by
  refine .object ?_
  simp only [List.forall_mem_cons]
  exact ⟨.string _, fits_elim fun q hq => QuerySpec.fits_toJson (h q hq),
    fits_elim fun w _ => WidgetRef.fits_toJson w _, fits_ofString? _, nofun⟩

end Render

/-! ## Configurations -/

namespace Config

structure IsSettled (n : Nat) (c : Config) : Prop where
  triggers : ∀ t ∈ c.triggers, t.IsSettled n
  group : ∀ g ∈ c.group, g.IsSettled n
  actions : ∀ a ∈ c.actions, a.IsSettled
  render : c.render.IsSettled n

variable {n : Nat} {c : Config}

theorem yields_reader (n : Nat) : Yields (Document.IsRegular (n + 5)) reader (IsSettled n) := by
  refine .record (fun d hd => hd.parts) ?_ ?_ _ _
  · exact ⟨List.forall_mem_nil _, fun _ hg => absurd hg (Option.not_mem_none _),
      List.forall_mem_nil _, fun _ hq => absurd hq (Option.not_mem_none _)⟩
  · simp only [List.forall_mem_cons]
    refine ⟨.optional (yields_any _ _) ?_ _,
      .optional (.list (fun d hd => hd.parts) (Trigger.yields_reader n)) ?_ _,
      .optional (Group.yields_reader n).optional ?_ _,
      .optional (.list (fun _ _ _ _ => trivial) (Action.yields_reader fun _ => True)) ?_ _,
      .optional (Render.yields_reader n) ?_ _, .optional (yields_any _ _) ?_ _,
      .optional (yields_any _ _) ?_ _, nofun⟩
    all_goals try exact fun v c _ h => ⟨h.triggers, h.group, h.actions, h.render⟩
    · exact fun v c hv h => ⟨hv, h.group, h.actions, h.render⟩
    · exact fun v c hv h => ⟨h.triggers, hv, h.actions, h.render⟩
    · exact fun v c hv h => ⟨h.triggers, h.group, hv, h.render⟩
    · exact fun v c hv h => ⟨h.triggers, h.group, h.actions, hv⟩

theorem reads (h : c.IsSettled n) : Reads reader c.toJson c :=
  Fills.reads (.optional (reads_ofString? _) <|
    .optional (.list fun t ht => Trigger.reads (h.triggers t ht)) <|
    .optional (.optional fun g hg => ⟨Group.reads (h.group g hg), nofun⟩) <|
    .optional (.list fun a ha => Action.reads (h.actions a ha)) <|
    .optional (Render.reads h.render) <| .optional (reads_ofString? _) <|
    .optional (reads_ofString? _) <| .nil _) (by decide) _ _

theorem fits_toJson (h : c.IsSettled n) : c.toJson.Fits Number.InRange (n + 5) := by
  have htriggers : (Json.array (c.triggers.map Trigger.toJson)).Fits Number.InRange (n + 4) :=
    .array (List.forall_mem_map.mpr fun t ht => Trigger.fits_toJson (h.triggers t ht))
  have hactions : (Json.array (c.actions.map Action.toJson)).Fits Number.InRange (n + 4) :=
    .array (List.forall_mem_map.mpr fun a _ => a.fits_toJson _)
  refine .object ?_
  simp only [List.forall_mem_cons]
  exact ⟨fits_ofString? _, htriggers, fits_elim fun g hg => Group.fits_toJson (h.group g hg),
    hactions, Render.fits_toJson h.render, fits_ofString? _, fits_ofString? _, nofun⟩

/-- A configuration that was read from a text without duplicate names is read back from the text
that is written for it, wherever the floats in that text are literals of themselves. -/
theorem ofText?_text_toJson {text : String} {c : Config}
    (hkeys : (Document.scan text.toList).found.hasUniqueKeys = true) (h : ofText? text = .ok c)
    (hfloats : ∀ x, .float x ∈ c.toJson.numbers → (Number.float x).IsLiteral) :
    ofText? c.toJson.text = .ok c := by
  have hregular : (Document.scan text.toList).found.IsRegular (122 + 5) :=
    ⟨Document.fits_scan text.toList, hkeys⟩
  have hsettled : c.IsSettled 122 := yields_reader 122 hregular (of_ofText_eq_ok h)
  have hfits : c.toJson.Fits Number.IsLiteral (122 + 5) := by
    refine (fits_toJson hsettled).of_numbers fun x hx hrange => ?_
    cases x with
    | int k => exact Number.isLiteral_int hrange
    | float x => exact hfloats x hx
  exact (reads hsettled).ofText hfits

/-- An alert on orders in short forms: categories and recipients as single texts, a filter with an
array of two items, and an action as an array. -/
def ordersText : String :=
  Json.text (.object
    [("triggers", .array [.object
      [("type", .string "threshold"), ("source", .string "orders"),
       ("aggregator", .string "count_distinct"),
       ("filters", .object [("region", .ofStrings ["east", "west"])]),
       ("legend", .string "month"), ("operator", .string ">="), ("value", .number (.float 2.5))]]),
     ("actions", .array [.ofStrings ["email", "ann@example.com; bob@example.com"]])])

theorem ofText?_text_toJson_orders :
    ∃ c, ofText? ordersText = .ok c ∧ ofText? c.toJson.text = .ok c := by
  have hkeys : (Document.scan ordersText.toList).found.hasUniqueKeys = true := by
    decide +kernel
  have hnumbers : (ofText? ordersText).toOption.map (·.toJson.numbers) = some [.float 2.5] := by
    decide +kernel
  have htext : (Number.float 2.5).text = "2.5" := by
    decide +kernel
  have hvalue : (Numeral.mk false [2] (some [5]) none).value? = some (.float 2.5) := by
    decide +kernel
  cases h : ofText? ordersText with
  | error fault =>
      rw [h] at hnumbers
      cases hnumbers
  | ok c =>
      have hwritten : c.toJson.numbers = [.float 2.5] := by
        rw [h] at hnumbers
        exact Option.some.inj hnumbers
      refine ⟨c, rfl, ofText?_text_toJson hkeys h fun x hx => ?_⟩
      rw [hwritten, List.mem_singleton] at hx
      cases hx
      refine ⟨_, ?_, hvalue⟩
      rw [htext]
      exact rfl

end Config

end Alerting.Rule
