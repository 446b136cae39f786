import Alerting.Pick.Resolution
import Alerting.Proofs.Dialogue
/-!
# What a pick leaves alone

A pick narrows its own dimension.  All other constraints of the filter stay as they are, and so does
the whole filter where there is nothing to narrow or where the pick cannot be resolved.  Only a pick
that looks for an extreme value asks the engine, and it asks once.
-/

namespace Alerting.Pick

open Query

namespace Context

/-- The field that a pick narrows; an empty name stands for none. -/
def HasField (c : Context) (field : String) : Prop :=
  c.xField = some field ∧ field ≠ ""

theorem filter_ne_eq_some_iff {c : Context} {field : String} :
    c.xField.filter (· ≠ "") = some field ↔ c.HasField field := by
  rw [Option.filter_eq_some_iff, decide_eq_true_iff]
  exact Iff.rfl

theorem filter_ne_eq_none_iff {c : Context} :
    c.xField.filter (· ≠ "") = none ↔ ∀ field, ¬c.HasField field := by
  rw [Option.filter_eq_none_iff]
  refine ⟨fun h field hfield => ?_, fun h field hfield => ?_⟩
  · exact h field hfield.1 (decide_eq_true hfield.2)
  · exact fun hne => h field ⟨hfield, of_decide_eq_true hne⟩

/-! ## The request -/

def request? (c : Context) : Option Aggregation :=
  match c.pick, c.xField.filter (· ≠ "") with
  | .extreme e, some field =>
    some { source := c.source, aggregate := e.aggregate, measure := some field, filter := c.filter }
  | _, _ => none

theorem isSome_request?_iff {c : Context} :
    c.request?.isSome = true ↔ ∃ e field, c.pick = .extreme e ∧ c.HasField field := by
  unfold request?
  split
  · next e field hpick hfield =>
    exact ⟨fun _ => ⟨e, field, hpick, filter_ne_eq_some_iff.mp hfield⟩, fun _ => rfl⟩
  · next hother =>
    refine ⟨nofun, ?_⟩
    rintro ⟨e, field, hpick, hfield⟩
    exact absurd (filter_ne_eq_some_iff.mpr hfield) (hother e field hpick)

section Exchanges

variable {σ : Type} (engine : Request → σ → Answer × σ) (s : σ) (c : Context) (today : Date)

/-- A pick asks its request, if it has one, and nothing else. -/
theorem exchanges_resolve :
    (c.resolve today).exchanges engine s =
      c.request?.toList.map fun a => ⟨.aggregate a, (engine (.aggregate a) s).1⟩ := by
  have hask : ∀ a s, (askAggregate a).exchanges engine s =
      [⟨.aggregate a, (engine (.aggregate a) s).1⟩] := fun _ _ => rfl
  unfold resolve
  rw [Dialogue.exchanges_seq, Dialogue.exchanges_pure, List.append_nil]
  unfold resolve? request?
  cases c.pick with
  | value =>
      dsimp only
      split <;> rfl
  | custom v => rfl
  | range lower upper inclusive =>
      dsimp only
      split <;> rfl
  | window w =>
      dsimp only
      split <;> rfl
  | extreme e =>
      dsimp only
      split
      · next hnone =>
        have hfield : c.xField.filter (· ≠ "") = none := hnone
        rw [hfield]
        rfl
      · next field hsome =>
        have hfield : c.xField.filter (· ≠ "") = some field := hsome
        rw [hfield, Dialogue.exchanges_seq, hask]
        -- whatever the engine has answered, nothing more is asked
        split
        · rfl
        · split <;> rfl

theorem length_exchanges_resolve_le : ((c.resolve today).exchanges engine s).length ≤ 1 := by
  rw [exchanges_resolve, List.length_map]
  cases c.request? with
  | none => exact Nat.zero_le 1
  | some a => exact Nat.le_refl 1

theorem asked_resolve :
    (c.resolve today).asked engine s = c.request?.toList.map .aggregate := by
  rw [← Dialogue.map_fst_exchanges, exchanges_resolve, List.map_map]
  rfl

theorem asked_resolve_ne_nil_iff :
    (c.resolve today).asked engine s ≠ [] ↔ ∃ e field, c.pick = .extreme e ∧ c.HasField field := by
  rw [← isSome_request?_iff, asked_resolve]
  cases c.request? <;> simp

theorem length_asked_resolve_le : ((c.resolve today).asked engine s).length ≤ 1 := by
  rw [← Dialogue.map_fst_exchanges, List.length_map]
  exact c.length_exchanges_resolve_le engine s today

end Exchanges

/-! ## What it comes to -/

/-- There is nothing to narrow: no field, a value that is only shown, or a range without bounds. -/
def LeavesFilter (c : Context) : Prop :=
  c.xField = none ∨ c.xField = some "" ∨ (∃ v, c.pick = .custom v) ∨
    ∃ lower upper inclusive, c.pick = .range lower upper inclusive ∧
      ∀ bound, lower = some bound ∨ upper = some bound → bound = .null

theorem LeavesFilter.not_hasField {c : Context} (h : c.xField = none ∨ c.xField = some "")
    (field : String) : ¬c.HasField field := by
  rintro ⟨hset, hne⟩
  rcases h with hnone | hempty
  · rw [hset] at hnone
    cases hnone
  · rw [hset] at hempty
    exact hne (Option.some.inj hempty)

def NamesValue (c : Context) : Prop :=
  match c.pick with
  | .value => (∃ field, c.HasField field) ∧ ∃ v, c.xValue = some v ∧ v ≠ .null
  | .range .. => False
  | .custom _ | .window _ | .extreme _ => True

/-- What a resolution has to do with the filter as it was. -/
structure Keeps (c : Context) (r : Resolution) : Prop where
  others : ∀ key, c.xField ≠ some key → r.filter.get? key = c.filter.get? key
  whole : c.LeavesFilter → r.filter = c.filter
  value : r.value.isSome = true ↔ c.NamesValue
  pretty : r.pretty = r.value.map prettyDate
  today : c.pick = .window .today → ∃ field bounds, c.HasField field ∧
    r.filter.get? field = some (.range bounds) ∧ bounds.gte = none ∧ bounds.gt = none

theorem keeps_unchanged {c : Context} (hvalue : ¬c.NamesValue)
    (hpick : c.pick ≠ .window .today) : c.Keeps (.ofFilter c.filter) where
  others _ _ := rfl
  whole _ := rfl
  value := ⟨nofun, fun h => absurd h hvalue⟩
  pretty := rfl
  today h := absurd h hpick

theorem get?_insert_field {c : Context} {field key : String} (hfield : c.HasField field)
    (hkey : c.xField ≠ some key) (constraint : Constraint) :
    (c.filter.insert field constraint).get? key = c.filter.get? key := by
  refine Dict.get?_insert_of_ne _ ?_ _
  rintro rfl
  exact hkey hfield.1

theorem keeps_insert {c : Context} {field : String} (hfield : c.HasField field)
    {constraint : Constraint} {value pretty : Option String}
    (hwhole : ¬c.LeavesFilter)
    (hvalue : value.isSome = true ↔ c.NamesValue) (hpretty : pretty = value.map prettyDate)
    (htoday : c.pick = .window .today →
      ∃ bounds, constraint = .range bounds ∧ bounds.gte = none ∧ bounds.gt = none) :
    c.Keeps ⟨c.filter.insert field constraint, value, pretty⟩ where
  others key hkey := get?_insert_field hfield hkey constraint
  whole h := absurd h hwhole
  value := hvalue
  pretty := hpretty
  today h := by
    obtain ⟨bounds, rfl, hbounds⟩ := htoday h
    exact ⟨field, bounds, hfield, Dict.get?_insert_self _ _ _, hbounds⟩

/-- What an attempt to resolve a pick comes to, whatever the engine answers. -/
def Settles (c : Context) : Except ResolveError Resolution → Prop
  | .ok r => c.Keeps r
  | .error _ => c.pick ≠ .value ∧ ∀ v, c.pick ≠ .custom v

theorem not_leavesFilter {c : Context} {field : String} (hfield : c.HasField field)
    (hcustom : ∀ v, c.pick ≠ .custom v)
    (hrange : ∀ lower upper inclusive, c.pick = .range lower upper inclusive →
      ∃ bound, (lower = some bound ∨ upper = some bound) ∧ bound ≠ .null) : ¬c.LeavesFilter := by
  rintro (hnone | hempty | ⟨v, hv⟩ | ⟨lower, upper, inclusive, hpick, hnull⟩)
  · exact LeavesFilter.not_hasField (.inl hnone) field hfield
  · exact LeavesFilter.not_hasField (.inr hempty) field hfield
  · exact hcustom v hv
  · obtain ⟨bound, hbound, hne⟩ := hrange lower upper inclusive hpick
    exact hne (hnull bound hbound)

theorem isNull_eq_false_iff {v : Json} : v.isNull = false ↔ v ≠ .null := by
  cases v <;> simp [Json.isNull]

theorem filter_isNull_eq_some_iff {v? : Option Json} {v : Json} :
    v?.filter (!·.isNull) = some v ↔ v? = some v ∧ v ≠ .null := by
  rw [Option.filter_eq_some_iff, Bool.not_eq_true', isNull_eq_false_iff]

/-- A range has no bounds if none is given; a null gives none. -/
theorem isUnbounded_range_iff {lower upper : Option Json} {inclusive : Bool} :
    Bounds.isUnbounded
        { gte := lower.filter (!·.isNull)
          lt := if inclusive then none else upper.filter (!·.isNull)
          lte := if inclusive then upper.filter (!·.isNull) else none } = true ↔
      ∀ bound, lower = some bound ∨ upper = some bound → bound = .null := by
  have hnone : ∀ v? : Option Json,
      v?.filter (!·.isNull) = none ↔ ∀ bound, v? = some bound → bound = .null := by
    intro v?
    rw [Option.filter_eq_none_iff]
    refine forall_congr' fun bound => imp_congr_right fun _ => ?_
    rw [Bool.not_eq_true', isNull_eq_false_iff, Classical.not_not]
  have hall : Bounds.isUnbounded
        { gte := lower.filter (!·.isNull)
          lt := if inclusive then none else upper.filter (!·.isNull)
          lte := if inclusive then upper.filter (!·.isNull) else none } = true ↔
      lower.filter (!·.isNull) = none ∧ upper.filter (!·.isNull) = none := by
    rw [← Option.isNone_iff_eq_none, ← Option.isNone_iff_eq_none, ← Bool.and_eq_true]
    cases inclusive <;> simp only [Bounds.isUnbounded, Option.isNone_none, Bool.and_true,
      if_true, Bool.false_eq_true, if_false]
  rw [hall, hnone, hnone]
  exact ⟨fun h bound => Or.rec (h.1 bound) (h.2 bound),
    fun h => ⟨fun bound hb => h bound (.inl hb), fun bound hb => h bound (.inr hb)⟩⟩

theorem bounds_today {now : Date} {found : Bounds × String}
    (h : Window.today.bounds now = .ok found) : found.1.gte = none ∧ found.1.gt = none := by
  unfold Window.bounds at h
  cases hnext : now.next? with
  | none =>
      rw [hnext] at h
      cases h
  | some tomorrow =>
      rw [hnext] at h
      cases h
      exact ⟨rfl, rfl⟩

theorem ensures_resolve? (c : Context) (today : Date) :
    (c.resolve? today).Ensures (fun _ _ => True) c.Settles := by
  obtain ⟨source, filter, xField, xValue, pick⟩ := c
  unfold resolve?
  cases pick with
  | value =>
      dsimp only
      split
      · next field v hsome hv =>
        have hfield := filter_ne_eq_some_iff.mp hsome
        exact keeps_insert hfield (not_leavesFilter hfield nofun nofun)
          ⟨fun _ => ⟨⟨field, hfield⟩, v, filter_isNull_eq_some_iff.mp hv⟩, fun _ => rfl⟩ rfl nofun
      · next hother =>
        refine keeps_unchanged ?_ nofun
        rintro ⟨⟨field, hfield⟩, v, hv⟩
        exact hother field v (filter_ne_eq_some_iff.mpr hfield) (filter_isNull_eq_some_iff.mpr hv)
  | custom v =>
      exact
        { others := fun _ _ => rfl
          whole := fun _ => rfl
          value := ⟨fun _ => trivial, fun _ => rfl⟩
          pretty := rfl
          today := nofun }
  | range lower upper inclusive =>
      dsimp only
      split
      · exact ⟨nofun, nofun⟩
      · next field hsome =>
        have hfield := filter_ne_eq_some_iff.mp hsome
        by_cases hall : ∀ bound, lower = some bound ∨ upper = some bound → bound = .null
        · rw [if_pos (isUnbounded_range_iff.mpr hall)]
          exact keeps_unchanged not_false nofun
        · rw [if_neg (mt isUnbounded_range_iff.mp hall)]
          refine keeps_insert hfield (not_leavesFilter hfield nofun ?_) ⟨nofun, nofun⟩ rfl nofun
          rintro _ _ _ ⟨⟩
          simpa using hall
  | window w =>
      dsimp only
      split
      · exact ⟨nofun, nofun⟩
      · next field hsome =>
        have hfield := filter_ne_eq_some_iff.mp hsome
        cases hbounds : w.bounds today with
        | error e => exact ⟨nofun, nofun⟩
        | ok found =>
            refine keeps_insert hfield (not_leavesFilter hfield nofun nofun)
              ⟨fun _ => trivial, fun _ => rfl⟩ rfl ?_
            rintro ⟨⟩
            exact ⟨_, rfl, bounds_today hbounds⟩
  | extreme e =>
      dsimp only
      split
      · exact ⟨nofun, nofun⟩
      · next field hsome =>
        have hfield := filter_ne_eq_some_iff.mp hsome
        refine (Dialogue.ensures_bind _ _).mpr (Dialogue.ensures_put.mpr fun answer _ => ?_)
        cases answer with
        | error failure => exact ⟨nofun, nofun⟩
        | ok result =>
            dsimp only
            split
            · exact ⟨nofun, nofun⟩
            · exact keeps_insert hfield (not_leavesFilter hfield nofun nofun)
                ⟨fun _ => trivial, fun _ => rfl⟩ rfl nofun

section Runs

variable {σ : Type} (engine : Request → σ → Answer × σ) (s : σ) (c : Context) (today : Date)

theorem run_resolve :
    ((c.resolve today).run engine s).1 =
      ((c.resolve? today).run engine s).1.toOption.getD (.ofFilter c.filter) := by
  unfold resolve
  rw [Dialogue.run_seq]
  rfl

theorem settles_run : c.Settles ((c.resolve? today).run engine s).1 :=
  (c.ensures_resolve? today).run (fun _ _ => trivial) s

/-- Today is resolved wherever there is a field and a day after it. -/
theorem isOk_run_resolve?_today (hpick : c.pick = .window .today) :
    ((c.resolve? today).run engine s).1.isOk = true ↔
      (∃ field, c.HasField field) ∧ today.next? ≠ none := by
  unfold resolve?
  rw [hpick]
  dsimp only
  split
  · next hnone =>
    refine ⟨nofun, ?_⟩
    rintro ⟨⟨field, hfield⟩, -⟩
    exact absurd hfield (filter_ne_eq_none_iff.mp hnone field)
  · next field hsome =>
    have hfield := filter_ne_eq_some_iff.mp hsome
    unfold Window.bounds
    cases today.next? with
    | none => exact ⟨nofun, fun h => absurd rfl h.2⟩
    | some tomorrow => exact ⟨fun _ => ⟨⟨field, hfield⟩, nofun⟩, fun _ => rfl⟩

/-- A pick touches only its own field.  The rest of the filter stays as it is, and so does all of it
where there is nothing to narrow or where the attempt fails, which names no value either.  Only an
extreme value of a field is asked for, and once.  A value goes with its shown form, a range has
none, and a window that ends today has no beginning. -/
theorem resolve_keeps_rest :
    let attempt := ((c.resolve? today).run engine s).1
    let r := ((c.resolve today).run engine s).1
    let asked := (c.resolve today).asked engine s
    (∀ key, c.xField ≠ some key → r.filter.get? key = c.filter.get? key) ∧
      (c.LeavesFilter ∨ attempt.isOk = false → r.filter = c.filter) ∧
      (attempt.isOk = false → r.value = none) ∧
      (asked ≠ [] ↔ ∃ e field, c.pick = .extreme e ∧ c.HasField field) ∧ asked.length ≤ 1 ∧
      (r.value.isSome = true ↔
        (∃ v, c.pick = .custom v) ∨
        ((∃ w, c.pick = .window w) ∨ ∃ e, c.pick = .extreme e) ∧ attempt.isOk = true ∨
        c.pick = .value ∧ (∃ field, c.HasField field) ∧ ∃ v, c.xValue = some v ∧ v ≠ .null) ∧
      (∀ lower upper inclusive, c.pick = .range lower upper inclusive → r.value = none) ∧
      r.pretty = r.value.map prettyDate ∧
      (c.pick = .window .today →
        (attempt.isOk = true ↔ (∃ field, c.HasField field) ∧ today.next? ≠ none) ∧
        (attempt.isOk = true → ∃ field bounds, c.HasField field ∧
          r.filter.get? field = some (.range bounds) ∧ bounds.gte = none ∧ bounds.gt = none)) := by
  intro attempt r asked
  have hr : r = attempt.toOption.getD (.ofFilter c.filter) := c.run_resolve engine s today
  have hsettles : c.Settles attempt := c.settles_run engine s today
  have hasked := And.intro (c.asked_resolve_ne_nil_iff engine s today)
    (c.length_asked_resolve_le engine s today)
  have htoday : c.pick = .window .today →
      (attempt.isOk = true ↔ (∃ field, c.HasField field) ∧ today.next? ≠ none) :=
    c.isOk_run_resolve?_today engine s today
  rw [hr]
  cases hattempt : attempt with
  | error e =>
      rw [hattempt] at hsettles
      obtain ⟨hvalue, hcustom⟩ := hsettles
      refine ⟨fun _ _ => rfl, fun _ => rfl, fun _ => rfl, hasked.1, hasked.2, ⟨nofun, ?_⟩,
        fun _ _ _ _ => rfl, rfl, fun hpick => ⟨hattempt ▸ htoday hpick, nofun⟩⟩
      rintro (⟨v, hv⟩ | ⟨-, hok⟩ | ⟨hpick, -⟩)
      · exact absurd hv (hcustom v)
      · cases hok
      · exact absurd hpick hvalue
  | ok resolution =>
      rw [hattempt] at hsettles
      refine ⟨hsettles.others, fun h => hsettles.whole (h.resolve_right nofun), nofun, hasked.1,
        hasked.2, hsettles.value.trans ?_, fun lower upper inclusive hpick => ?_, hsettles.pretty,
        fun hpick => ⟨hattempt ▸ htoday hpick, fun _ => hsettles.today hpick⟩⟩
      · unfold NamesValue
        cases hpick : c.pick <;> simp [Except.isOk, Except.toBool]
      · have hnone : ¬c.NamesValue := by
          rw [NamesValue, hpick]
          exact id
        rw [← hsettles.value, Bool.not_eq_true, Option.isSome_eq_false_iff] at hnone
        exact Option.isNone_iff_eq_none.mp hnone

end Runs

end Context

end Alerting.Pick
