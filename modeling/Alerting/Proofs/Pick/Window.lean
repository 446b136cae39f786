import Alerting.Pick.Resolution
import Alerting.Proofs.Calendar.Text
/-!
# The days of a window

A window is handed to the engine as bounds that are texts, and an engine that compares texts byte by
byte selects the days that are meant: all days up to today, the day before, or those of the month.
-/

namespace Alerting

open Calendar Query Text.Utf8

namespace Query.Bounds

/-- A text lies within bounds that are texts themselves, by comparing bytes. -/
structure Admits (b : Bounds) (text : String) : Prop where
  gte : ∀ bound ∈ b.gte, ∃ s, bound = .string s ∧ ¬encode text < encode s
  gt : ∀ bound ∈ b.gt, ∃ s, bound = .string s ∧ encode s < encode text
  lt : ∀ bound ∈ b.lt, ∃ s, bound = .string s ∧ encode text < encode s
  lte : ∀ bound ∈ b.lte, ∃ s, bound = .string s ∧ ¬encode s < encode text

theorem admits_below_iff {upper text : String} :
    Admits { lt := some (.string upper) } text ↔ encode text < encode upper := by
  constructor
  · intro h
    obtain ⟨s, hs, hlt⟩ := h.lt _ rfl
    cases hs
    exact hlt
  · intro h
    exact
      { gte := nofun
        gt := nofun
        lt := by
          rintro _ ⟨⟩
          exact ⟨upper, rfl, h⟩
        lte := nofun }

theorem admits_between_iff {lower upper text : String} :
    Admits { gte := some (.string lower), lt := some (.string upper) } text ↔
      ¬encode text < encode lower ∧ encode text < encode upper := by
  constructor
  · intro h
    obtain ⟨s, hs, hge⟩ := h.gte _ rfl
    obtain ⟨t, ht, hlt⟩ := h.lt _ rfl
    cases hs
    cases ht
    exact ⟨hge, hlt⟩
  · rintro ⟨hge, hlt⟩
    exact
      { gte := by
          rintro _ ⟨⟩
          exact ⟨lower, rfl, hge⟩
        gt := nofun
        lt := by
          rintro _ ⟨⟩
          exact ⟨upper, rfl, hlt⟩
        lte := nofun }

end Query.Bounds

namespace Pick.Window

def Covers : Window → Date → Date → Prop
  | today, now, d => d.dayNumber ≤ now.dayNumber
  | yesterday, now, d => d.dayNumber + 1 = now.dayNumber
  | thisMonth, now, d => d.year = now.year ∧ d.month = now.month

section Days

variable {now tomorrow yesterday next d : Date}

theorem precedes_next_iff_of_firstOfNextMonth? (h : now.firstOfNextMonth? = some next) :
    (¬d.Precedes now.firstOfMonth ∧ d.Precedes next) ↔
      d.year = now.year ∧ d.month = now.month := by
  have hd := d.day_mem
  have hmonth := d.month_mem
  have hnow := now.month_mem
  unfold Date.firstOfNextMonth? at h
  unfold Date.Precedes Date.firstOfMonth
  dsimp only
  split at h
  · obtain ⟨hyear, hmonth, hday⟩ := Date.ofParts?_eq_some_iff.mp h
    rw [hyear, hmonth, hday]
    omega
  · obtain ⟨hyear, hmonth, hday⟩ := Date.ofParts?_eq_some_iff.mp h
    rw [hyear, hmonth, hday]
    omega

end Days

/-- On a day after which the next day and the next month still have years of four digits, the bounds
of a window select the days that are meant. -/
theorem bounds_select (w : Window) {now tomorrow next : Date}
    (htomorrow : now.next? = some tomorrow)
    (hnext : now.firstOfNextMonth? = some next) (hnow : now.HasPlainYear)
    (hplain : tomorrow.HasPlainYear) (hplain' : next.HasPlainYear) :
    ∃ bounds shown, w.bounds now = .ok (bounds, shown) ∧
      ∀ d : Date, d.HasPlainYear → (bounds.Admits d.text ↔ w.Covers now d) := by
  cases w with
  | today =>
      refine ⟨{ lt := some (.string tomorrow.text) }, now.text, ?_, fun d hd => ?_⟩
      · unfold bounds
        rw [htomorrow]
        rfl
      · rw [Bounds.admits_below_iff, Date.encode_text_lt_iff hd hplain,
          Date.dayNumber_of_next? htomorrow]
        exact Int.lt_add_one_iff
  | yesterday =>
      obtain ⟨before, hbefore⟩ :=
        Date.exists_prev? (d := now) (Int.lt_of_lt_of_le (by decide) hnow.1)
      have hnumber := Date.dayNumber_of_prev? hbefore
      refine ⟨{ gte := some (.string before.text), lt := some (.string now.text) }, before.text, ?_,
        fun d hd => ?_⟩
      · unfold bounds
        rw [hbefore]
        rfl
      · rw [Bounds.admits_between_iff, Date.encode_text_lt_iff hd hnow, Covers]
        constructor
        · rintro ⟨hge, hlt⟩
          -- the day before has a plain year, since a day with a plain year is not after it
          have hplain : before.HasPlainYear :=
            ⟨hd.1.trans (Date.year_le_of_dayNumber_le (by omega)),
              (Date.year_le_of_dayNumber_le (by omega)).trans hnow.2⟩
          rw [Date.encode_text_lt_iff hd hplain] at hge
          omega
        · intro h
          have heq : d = before := Date.dayNumber_injective (by omega)
          subst heq
          exact ⟨List.lt_irrefl _, by omega⟩
  | thisMonth =>
      refine ⟨{ gte := some (.string now.firstOfMonth.text), lt := some (.string next.text) },
        now.firstOfMonth.monthText, ?_, fun d hd => ?_⟩
      · unfold bounds
        rw [hnext]
        rfl
      · have hfirst : now.firstOfMonth.HasPlainYear := hnow
        rw [Bounds.admits_between_iff, Date.encode_text_lt_iff hd hplain',
          Date.encode_text_lt_iff hd hfirst, Date.dayNumber_lt_iff, Date.dayNumber_lt_iff]
        exact precedes_next_iff_of_firstOfNextMonth? hnext

/-- The month of a leap day ends with it. -/
theorem bounds_select_leapDay :
    ∃ march : Date, Date.leapDay.next? = some march ∧
      Date.leapDay.firstOfNextMonth? = some march ∧ Date.leapDay.HasPlainYear ∧
      march.HasPlainYear ∧
      ∃ bounds shown, thisMonth.bounds Date.leapDay = .ok (bounds, shown) ∧
        bounds.Admits Date.leapDay.text ∧ ¬bounds.Admits march.text := by
  let march : Date := ⟨2024, 3, 1, by decide, by decide⟩
  have hplain : Date.leapDay.HasPlainYear := ⟨by decide, by decide⟩
  have hplain' : march.HasPlainYear := ⟨by decide, by decide⟩
  obtain ⟨bounds, shown, hbounds, hselect⟩ :=
    bounds_select thisMonth (rfl : Date.leapDay.next? = some march) rfl hplain hplain' hplain'
  refine ⟨march, rfl, rfl, hplain, hplain', bounds, shown, hbounds, ?_, ?_⟩
  · exact (hselect _ hplain).mpr ⟨rfl, rfl⟩
  · rw [hselect _ hplain']
    exact fun h => absurd h.2 (by decide)

end Pick.Window

end Alerting
