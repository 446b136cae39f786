import Alerting.Proofs.Query.Settled
import Alerting.Rule.Condition
/-!
# Settled conditions

Conditions that were read are settled: written down, they are read again as they are.  Names of
alternatives are written in the one spelling that stands for all of them, a single text as an array,
and what is absent as null.
-/

namespace Alerting

open Json Json.Reader

/-! ## Picks -/

namespace Pick

/-- The values of the pick come from a text, and no bound is null. -/
def IsSettled (n : Nat) : Pick → Prop
  | custom v => v.IsRegular n
  | range lower upper _ => IsFound n lower ∧ IsFound n upper
  | _ => True

variable {n : Nat}

theorem yields_reader (n : Nat) : Yields (Document.IsRegular (n + 1)) reader (IsSettled n) := by
  refine .tagged (fun d hd => hd.parts) ?_ _ _
  simp only [List.forall_mem_cons]
  refine ⟨yields_bare trivial _, ?custom, ?range, ?window, ?extreme, nofun⟩
  case custom =>
    refine .map (.record (fun d hd => hd) ?_ ?_ _ _) fun parts (h : parts.value.IsRegular n) => h
    · exact isRegular_null n
    · rw [List.forall_mem_singleton]
      refine .mandatory (yields_json n) ?_ _
      exact fun v parts hv _ => hv
  case range =>
    refine .map (.record (fun d hd => hd) ?_ ?_ _ _)
      fun parts (h : IsFound n parts.lower ∧ IsFound n parts.upper) => h
    · exact ⟨isFound_none n, isFound_none n⟩
    · simp only [List.forall_mem_cons]
      refine ⟨.optional (yields_optional_json n) ?_ _, .optional (yields_optional_json n) ?_ _,
        .optional (yields_any _ _) ?_ _, nofun⟩
      · exact fun v parts hv h => ⟨hv, h.2⟩
      · exact fun v parts hv h => ⟨h.1, hv⟩
      · exact fun v parts _ h => h
  case window => exact .map (yields_any _ _) fun parts _ => trivial
  case extreme => exact .map (yields_any _ _) fun parts _ => trivial

theorem Window.reads (w : Window) : Reads reader (.string w.name) w :=
  reads_keyword (by cases w <;> rfl)

theorem Extreme.reads (e : Extreme) : Reads (keyword names) (.string e.name) e :=
  reads_keyword (by cases e <;> rfl)

theorem reads {pick : Pick} (h : pick.IsSettled n) : Reads reader pick.toJson pick := by
  cases pick with
  | value => exact .tagged (reads_bare _ _ _) rfl (by simp) _
  | custom v =>
      have hfills : Fills [.mandatory "value" json fun v (p : Parts) => { p with value := v }]
          [("value", v)] {} { value := v } := .mandatory (reads_json h.sorted) (.nil _)
      exact .tagged ((hfills.reads (by decide) _ _).map fun p => custom p.value) rfl (by simp) _
  | range lower upper inclusive =>
      have hfills : Fills
          [.optional "from" (optional json) fun v (p : Parts) => { p with lower := v },
           .optional "to" (optional json) fun v p => { p with upper := v },
           .optional "inclusiveTo" bool fun v p => { p with inclusiveUpper := v }]
          [("from", lower.getD .null), ("to", upper.getD .null), ("inclusiveTo", .bool inclusive)]
          {} { lower := lower, upper := upper, inclusiveUpper := inclusive } :=
        .optional (IsFound.reads h.1) <| .optional (IsFound.reads h.2) <|
          .optional (reads_bool inclusive) <| .nil _
      exact .tagged ((hfills.reads (by decide) _ _).map
        fun p => range p.lower p.upper p.inclusiveUpper) rfl (by simp) _
  | window w =>
      have hfills : Fills
          [.mandatory "token" Window.reader fun v (p : Parts) => { p with window := v }]
          [("token", .string w.name)] {} { window := w } := .mandatory w.reads (.nil _)
      exact .tagged ((hfills.reads (by decide) _ _).map fun p => window p.window) rfl (by simp) _
  | extreme e =>
      have hfills : Fills
          [.mandatory "pick" (keyword Extreme.names) fun v (p : Parts) => { p with extreme := v }]
          [("pick", .string e.name)] {} { extreme := e } := .mandatory e.reads (.nil _)
      exact .tagged ((hfills.reads (by decide) _ _).map fun p => extreme p.extreme) rfl (by simp) _

theorem fits_toJson {pick : Pick} (h : pick.IsSettled n) :
    pick.toJson.Fits Number.InRange (n + 1) := by
  refine .object ?_
  cases pick with
  | value => simpa using Fits.string _
  | custom v => simpa [Fits.string] using h.fits
  | range lower upper inclusive =>
    simpa [Fits.string, Fits.bool] using ⟨IsFound.fits h.1, IsFound.fits h.2⟩
  | window w => simp [Fits.string]
  | extreme e => simp [Fits.string]

end Pick

/-! ## Alternatives with a name -/

theorem Query.Aggregate.reads (a : Query.Aggregate) : Reads reader (.string a.name) a :=
  reads_keyword (by cases a <;> rfl)

theorem Comparison.reads (c : Comparison) : Reads reader (.string c.name) c := by
  refine (reads_string c.name).refine ?_
  have hname : ofText? c.name = some c := by
    cases c <;> decide +kernel
  rw [hname]
  rfl

theorem Strategy.reads (s : Strategy) : Reads (keyword names) (.string s.name) s :=
  reads_keyword (by cases s <;> rfl)

namespace Rule

open Query

/-! ## Times -/

def IsSmall (k : Nat) : Prop :=
  k < Nat.pow 2 32

theorem IsSmall.reads {k : Nat} (h : IsSmall k) : Reads small (.int k) k :=
  reads_natural _ h

theorem IsSmall.fits {k n : Nat} (h : IsSmall k) : (Json.int k).Fits Number.InRange n := by
  have hbound : k < 2 ^ 32 := h
  exact .number ⟨by omega, by omega⟩

namespace Schedule

def IsSettled : Schedule → Prop
  | daily => True
  | weekly days => ∀ day ∈ days, IsSmall day
  | monthly days => ∀ day ∈ days, IsSmall day

theorem yields_reader (kind : Document → Prop) : Yields kind reader IsSettled := by
  have hparts : ∀ (kind : Document → Prop) d, kind d → ∀ part ∈ d.parts, True :=
    fun _ _ _ _ _ => trivial
  refine .tagged (hparts kind) ?_ _ _
  simp only [List.forall_mem_cons]
  refine ⟨yields_bare trivial _, ?weekly, ?monthly, nofun⟩
  all_goals
    refine .map (.record (hparts _) ?_ ?_ _ _) fun days (h : ∀ day ∈ days, IsSmall day) => h
    · exact nofun
    · rw [List.forall_mem_singleton]
      refine .optional (.list (hparts _) (yields_natural _ _)) ?_ _
      exact fun days _ hdays _ => hdays

theorem reads {schedule : Schedule} (h : schedule.IsSettled) :
    Reads reader schedule.toJson schedule := by
  have hdays : ∀ (days : List Nat), (∀ day ∈ days, IsSmall day) →
      Fills [.optional "days" (list small) fun v _ => v] [("days", daysJson days)] [] days :=
    fun days hdays => .optional (.list fun day hday => (hdays day hday).reads) (.nil _)
  cases schedule with
  | daily => exact .tagged (reads_bare _ _ _) rfl (by simp) _
  | weekly days =>
      exact .tagged (((hdays days h).reads (by decide) _ _).map weekly) rfl (by simp) _
  | monthly days =>
      exact .tagged (((hdays days h).reads (by decide) _ _).map monthly) rfl (by simp) _

theorem fits_toJson {schedule : Schedule} (h : schedule.IsSettled) (n : Nat) :
    schedule.toJson.Fits Number.InRange (n + 2) := by
  have hdays : ∀ (days : List Nat), (∀ day ∈ days, IsSmall day) →
      (daysJson days).Fits Number.InRange (n + 1) :=
    fun days hdays => .array (List.forall_mem_map.mpr fun day hday => (hdays day hday).fits)
  cases schedule with
  | daily => exact .object (by simp [Fits.string])
  | weekly days => exact .object (by simpa [Fits.string] using hdays days h)
  | monthly days => exact .object (by simpa [Fits.string] using hdays days h)

end Schedule

namespace TimeCondition

structure IsSettled (c : TimeCondition) : Prop where
  hour : IsSmall c.hour
  minute : IsSmall c.minute
  schedule : c.schedule.IsSettled

variable {c : TimeCondition}

theorem yields_reader (kind : Document → Prop) : Yields kind reader IsSettled := by
  have hparts : ∀ d, kind d → ∀ part ∈ d.parts, True := fun _ _ _ _ => trivial
  refine .record hparts ?_ ?_ _ _
  · exact ⟨Nat.two_pow_pos 32, Nat.two_pow_pos 32, trivial⟩
  · simp only [List.forall_mem_cons]
    refine ⟨.optional (yields_any _ _) ?_ _, .mandatory (yields_natural _ _) ?_ _,
      .mandatory (yields_natural _ _) ?_ _, .optional (Schedule.yields_reader _) ?_ _,
      .optional (yields_any _ _) ?_ _, nofun⟩
    all_goals try exact fun v c _ h => ⟨h.hour, h.minute, h.schedule⟩
    · exact fun v c hv h => ⟨hv, h.minute, h.schedule⟩
    · exact fun v c hv h => ⟨h.hour, hv, h.schedule⟩
    · exact fun v c hv h => ⟨h.hour, h.minute, hv⟩

theorem reads (h : c.IsSettled) : Reads reader (.object c.fields) c :=
  Fills.reads (.optional (reads_bool _) <| .mandatory h.hour.reads <| .mandatory h.minute.reads <|
    .optional (Schedule.reads h.schedule) <| .optional (reads_ofString? _) <| .nil _)
    (by decide) _ _

theorem fits_fields (h : c.IsSettled) (n : Nat) :
    ∀ e ∈ c.fields, e.2.Fits Number.InRange (n + 2) := by
  simp only [TimeCondition.fields, List.forall_mem_cons]
  exact ⟨.bool _, h.hour.fits, h.minute.fits, Schedule.fits_toJson h.schedule n,
    fits_ofString? _, nofun⟩

end TimeCondition

/-! ## Thresholds -/

theorem yields_oneOrMany (kind : Document → Prop) :
    Yields kind oneOrMany fun texts => ∀ text ∈ texts, Text.isBlankText text = false := by
  intro source d texts _ htexts text htext
  obtain ⟨found, -, htexts⟩ := exists_of_bind_eq_ok htexts
  cases htexts
  simpa using (List.mem_filter.mp htext).2

theorem reads_strings (single : String → List String) (texts : List String) :
    Reads (firstOf "OneOrMany" [fun s d => single <$> string s d, list string])
      (.ofStrings texts) texts := by
  have hlist : Reads (list string) (.ofStrings texts) texts := .list fun text _ => reads_string text
  refine .firstOf_cons (hlist.firstOf _ _) fun d hd => ?_
  obtain ⟨start, items, after, rfl, -⟩ := says_array_iff.mp hd
  exact ⟨_, rfl⟩

theorem reads_oneOrMany {texts : List String}
    (h : ∀ text ∈ texts, Text.isBlankText text = false) :
    Reads oneOrMany (.ofStrings texts) texts := by
  intro source d hd
  have hfound : Reads (optional (firstOf "OneOrMany"
      [fun s d => (fun text => [text]) <$> string s d, list string]))
      ((some texts).elim .null .ofStrings) (some texts) := by
    refine .optional ?_
    rintro _ ⟨⟩
    exact ⟨reads_strings _ texts, nofun⟩
  have hfilter : texts.filter (!Text.isBlankText ·) = texts := by
    rw [List.filter_eq_self]
    exact fun text htext => by rw [h text htext]; rfl
  unfold oneOrMany
  rw [hfound hd]
  exact congrArg Except.ok hfilter

namespace ThresholdCondition

structure IsSettled (n : Nat) (c : ThresholdCondition) : Prop where
  filter : c.filter.IsSettled n
  xValue : IsFound (n + 2) c.xValue
  pick : c.pick.IsSettled (n + 1)
  legend : ∀ text ∈ c.legend, Text.isBlankText text = false
  value : IsFound (n + 2) c.value

variable {n : Nat} {c : ThresholdCondition}

theorem yields_reader (n : Nat) :
    Yields (Document.HasRegularParts (n + 2)) reader (IsSettled n) := by
  refine .record (fun d hd => hd) ?_ ?_ _ _
  · exact ⟨Filter.isSettled_empty n, isFound_none _, trivial, nofun, isFound_none _⟩
  · simp only [List.forall_mem_cons]
    refine ⟨.mandatory (yields_any _ _) ?_ _, .optional (yields_any _ _) ?_ _,
      .optional (yields_any _ _) ?_ _, .optional (Filter.yields_reader n) ?_ _,
      .optional (yields_any _ _) ?_ _, .optional (yields_optional_json _) ?_ _,
      .optional (Pick.yields_reader _) ?_ _, .optional (yields_oneOrMany _) ?_ _,
      .mandatory (yields_any _ _) ?_ _, .optional (yields_optional_json _) ?_ _,
      .optional (yields_any _ _) ?_ _, .optional (yields_any _ _) ?_ _, nofun⟩
    -- seven fields hold nothing that could be unsettled
    all_goals try exact fun v c _ h => ⟨h.filter, h.xValue, h.pick, h.legend, h.value⟩
    · exact fun v c hv h => ⟨hv, h.xValue, h.pick, h.legend, h.value⟩
    · exact fun v c hv h => ⟨h.filter, hv, h.pick, h.legend, h.value⟩
    · exact fun v c hv h => ⟨h.filter, h.xValue, hv, h.legend, h.value⟩
    · exact fun v c hv h => ⟨h.filter, h.xValue, h.pick, hv, h.value⟩
    · exact fun v c hv h => ⟨h.filter, h.xValue, h.pick, h.legend, hv⟩

theorem reads (h : c.IsSettled n) : Reads reader (.object c.fields) c :=
  Fills.reads (.mandatory (reads_string _) <| .optional c.aggregate.reads <|
    .optional (reads_ofString? _) <| .optional (Filter.reads h.filter) <|
    .optional (reads_ofString? _) <| .optional (IsFound.reads h.xValue) <|
    .optional (Pick.reads h.pick) <| .optional (reads_oneOrMany h.legend) <|
    .mandatory c.comparison.reads <| .optional (IsFound.reads h.value) <|
    .optional c.strategy.reads <| .optional (reads_ofString? _) <| .nil _)
    (by decide) _ _

theorem fits_fields (h : c.IsSettled n) : ∀ e ∈ c.fields, e.2.Fits Number.InRange (n + 2) := by
  simp only [ThresholdCondition.fields, List.forall_mem_cons]
  exact ⟨.string _, .string _, fits_ofString? _, Filter.fits_toJson h.filter, fits_ofString? _,
    IsFound.fits h.xValue, Pick.fits_toJson h.pick, fits_ofStrings _, .string _,
    IsFound.fits h.value, .string _, fits_ofString? _, nofun⟩

end ThresholdCondition

end Rule

end Alerting
