import Alerting.Calendar
import Mathlib
/-!
# Days in order

Numbering the days is the bridge between the calendar and arithmetic.  Numbers ascend as dates do,
year before month before day, and from one day to the next they go up by one:

* `dayNumber_lt_iff`: days are numbered in the order of their dates;
* `next?_eq_some_iff`, `prev?_eq_some_iff`: the day after and the day before, across the ends of
  months and years.
-/

namespace Alerting

namespace Calendar

/-! ## Months and years -/

theorem month_mem {year : Int} {month : Nat} (h : 1 ≤ daysInMonth year month) :
    1 ≤ month ∧ month ≤ 12 := by
  unfold daysInMonth at h
  split at h <;> omega

theorem daysInMonth_mem (year : Int) {month : Nat} (h : 1 ≤ month ∧ month ≤ 12) :
    1 ≤ daysInMonth year month ∧ daysInMonth year month ≤ 31 := by
  obtain ⟨hpos, hle⟩ := h
  interval_cases month <;> cases hleap : isLeap year <;> simp [daysInMonth, hleap]

theorem daysBeforeMonth_succ (year : Int) {month : Nat} (h : 1 ≤ month) :
    daysBeforeMonth year (month + 1) = daysBeforeMonth year month + daysInMonth year month := by
  unfold daysBeforeMonth
  obtain ⟨m, rfl⟩ : ∃ m, month = m + 1 := ⟨month - 1, by omega⟩
  rw [Nat.add_sub_cancel, Nat.add_sub_cancel, List.range_succ, List.foldl_append]
  rfl

theorem daysBeforeMonth_add_le (year : Int) {month later : Nat} (h : 1 ≤ month)
    (hlater : month < later) :
    daysBeforeMonth year month + daysInMonth year month ≤ daysBeforeMonth year later := by
  induction later, hlater using Nat.le_induction with
  | base => exact (daysBeforeMonth_succ year h).ge
  | succ later hlater ih =>
      rw [daysBeforeMonth_succ year (by omega)]
      omega

def daysInYear (year : Int) : Nat :=
  if isLeap year then 366 else 365

theorem daysBeforeMonth_thirteen (year : Int) : daysBeforeMonth year 13 = daysInYear year := by
  simp only [daysBeforeMonth, daysInMonth, daysInYear, List.range, List.range.loop, List.foldl]
  split <;> rfl

theorem daysBeforeYear_succ (year : Int) :
    daysBeforeYear (year + 1) = daysBeforeYear year + daysInYear year := by
  have hleap : isLeap year = true ↔ year % 4 = 0 ∧ (year % 100 ≠ 0 ∨ year % 400 = 0) := by
    simp [isLeap]
  simp only [daysBeforeYear, Int.fdiv_eq_ediv_of_nonneg _ (by omega : (0 : Int) ≤ 4),
    Int.fdiv_eq_ediv_of_nonneg _ (by omega : (0 : Int) ≤ 100),
    Int.fdiv_eq_ediv_of_nonneg _ (by omega : (0 : Int) ≤ 400), daysInYear]
  split
  · next h =>
    rw [hleap] at h
    omega
  · next h =>
    rw [hleap] at h
    omega

theorem daysBeforeYear_add_le {year later : Int} (h : year < later) :
    daysBeforeYear year + daysInYear year ≤ daysBeforeYear later := by
  induction later, h using Int.leInduction with
  | base => exact (daysBeforeYear_succ year).ge
  | succ later hlater ih =>
      rw [daysBeforeYear_succ]
      omega

end Calendar

namespace Date

open Calendar

/-! ## The order of days -/

def Precedes (d e : Date) : Prop :=
  d.year < e.year ∨ d.year = e.year ∧ (d.month < e.month ∨ d.month = e.month ∧ d.day < e.day)

theorem month_mem (d : Date) : 1 ≤ d.month ∧ d.month ≤ 12 :=
  Calendar.month_mem (d.day_mem.1.trans d.day_mem.2)

theorem precedes_trichotomy (d e : Date) : d.Precedes e ∨ d = e ∨ e.Precedes d := by
  unfold Precedes
  rw [Date.ext_iff]
  omega

theorem day_lt (d : Date) : d.day < 100 := by
  have hday := d.day_mem
  have hmonth := daysInMonth_mem d.year d.month_mem
  omega

def dayOfYear (d : Date) : Nat :=
  daysBeforeMonth d.year d.month + d.day

theorem dayNumber_eq (d : Date) :
    d.dayNumber = daysBeforeYear d.year + d.dayOfYear - 1 := by
  unfold dayNumber dayOfYear
  push_cast
  omega

theorem dayOfYear_mem (d : Date) : 1 ≤ d.dayOfYear ∧ d.dayOfYear ≤ daysInYear d.year := by
  have hmonth := daysBeforeMonth_add_le d.year d.month_mem.1 (by have := d.month_mem; omega :
    d.month < 13)
  rw [daysBeforeMonth_thirteen] at hmonth
  have hday := d.day_mem
  unfold dayOfYear
  omega

theorem Precedes.dayNumber_lt {d e : Date} (h : d.Precedes e) : d.dayNumber < e.dayNumber := by
  rw [dayNumber_eq, dayNumber_eq]
  obtain hyear | ⟨hyear, hmonth | ⟨hmonth, hday⟩⟩ := h
  · have hyears := daysBeforeYear_add_le hyear
    have hd := d.dayOfYear_mem
    have he := e.dayOfYear_mem
    omega
  · have hmonths := daysBeforeMonth_add_le d.year d.month_mem.1 hmonth
    have hd := d.day_mem
    have he := e.day_mem
    unfold dayOfYear
    rw [← hyear]
    omega
  · unfold dayOfYear
    rw [hyear, hmonth]
    omega

theorem dayNumber_lt_iff {d e : Date} : d.dayNumber < e.dayNumber ↔ d.Precedes e := by
  refine ⟨fun h => ?_, Precedes.dayNumber_lt⟩
  obtain hde | rfl | hed := precedes_trichotomy d e
  · exact hde
  · exact absurd h (lt_irrefl _)
  · exact absurd hed.dayNumber_lt h.not_gt

theorem year_le_of_dayNumber_le {d e : Date} (h : d.dayNumber ≤ e.dayNumber) :
    d.year ≤ e.year := by
  by_contra hyear
  exact absurd (Precedes.dayNumber_lt (.inl (not_le.mp hyear))) h.not_gt

theorem dayNumber_injective : Function.Injective dayNumber := by
  intro d e h
  obtain hde | heq | hed := precedes_trichotomy d e
  · exact absurd h hde.dayNumber_lt.ne
  · exact heq
  · exact absurd h hed.dayNumber_lt.ne'

/-! ## Neighbours -/

theorem ofParts?_eq_some_iff {year : Int} {month day : Nat} {d : Date} :
    ofParts? year month day = some d ↔ d.year = year ∧ d.month = month ∧ d.day = day := by
  unfold ofParts?
  constructor
  · intro h
    split at h
    · cases h
      exact ⟨rfl, rfl, rfl⟩
    · cases h
  · rintro ⟨rfl, rfl, rfl⟩
    rw [dif_pos ⟨d.year_mem, d.day_mem⟩]

theorem dayNumber_of_next? {d e : Date} (h : d.next? = some e) :
    e.dayNumber = d.dayNumber + 1 := by
  have hmonth := d.month_mem
  have hsucc := daysBeforeMonth_succ d.year hmonth.1
  rw [dayNumber_eq, dayNumber_eq]
  unfold next? at h
  unfold dayOfYear
  split at h
  · obtain ⟨hy, hm, hd⟩ := ofParts?_eq_some_iff.mp h
    rw [hy, hm, hd]
    push_cast
    omega
  · next hlast =>
    have hday : d.day = daysInMonth d.year d.month := by
      have := d.day_mem
      omega
    split at h
    · obtain ⟨hy, hm, hd⟩ := ofParts?_eq_some_iff.mp h
      rw [hy, hm, hd, hday, hsucc]
      push_cast
      omega
    · next hdecember =>
      obtain ⟨hy, hm, hd⟩ := ofParts?_eq_some_iff.mp h
      obtain hmonth : d.month = 12 := by omega
      have hfirst : daysBeforeMonth (d.year + 1) 1 = 0 := rfl
      rw [hmonth, daysBeforeMonth_thirteen] at hsucc
      rw [hy, hm, hd, hday, hmonth, hfirst, daysBeforeYear_succ, hsucc]
      push_cast
      omega

theorem dayNumber_of_prev? {d e : Date} (h : d.prev? = some e) :
    e.dayNumber + 1 = d.dayNumber := by
  have hmonth := d.month_mem
  rw [dayNumber_eq, dayNumber_eq]
  unfold prev? at h
  unfold dayOfYear
  split at h
  · obtain ⟨hy, hm, hd⟩ := ofParts?_eq_some_iff.mp h
    rw [hy, hm, hd]
    omega
  · next hfirst =>
    have hday : d.day = 1 := by
      have := d.day_mem
      omega
    split at h
    · obtain ⟨hy, hm, hd⟩ := ofParts?_eq_some_iff.mp h
      have hsucc := daysBeforeMonth_succ d.year (by omega : 1 ≤ d.month - 1)
      rw [Nat.sub_add_cancel hmonth.1] at hsucc
      rw [hy, hm, hd, hday, hsucc]
      push_cast
      omega
    · obtain ⟨hy, hm, hd⟩ := ofParts?_eq_some_iff.mp h
      have hjanuary : d.month = 1 := by omega
      have hyears := daysBeforeYear_succ (d.year - 1)
      have hsucc := daysBeforeMonth_succ (d.year - 1) (by decide : 1 ≤ 12)
      have hnone : daysBeforeMonth d.year 1 = 0 := rfl
      have hdecember : daysInMonth (d.year - 1) 12 = 31 := rfl
      rw [sub_add_cancel] at hyears
      rw [daysBeforeMonth_thirteen, hdecember] at hsucc
      rw [hy, hm, hd, hday, hjanuary, hnone, hyears, hsucc]
      push_cast
      omega

/-- Only the first day of the calendar has no day before it. -/
theorem exists_prev? {d : Date} (h : minYear < d.year) : ∃ e, d.prev? = some e := by
  have hday := d.day_mem
  have hmonth := d.month_mem
  have hyear := d.year_mem
  have hparts : ∀ year month day, minYear ≤ year ∧ year ≤ maxYear →
      1 ≤ day ∧ day ≤ daysInMonth year month → ∃ e, ofParts? year month day = some e :=
    fun year month day hy hd => ⟨⟨year, month, day, hy, hd⟩, dif_pos ⟨hy, hd⟩⟩
  unfold prev?
  split
  · exact hparts _ _ _ hyear (by omega)
  · split
    · have hlength := daysInMonth_mem d.year (by omega : 1 ≤ d.month - 1 ∧ d.month - 1 ≤ 12)
      exact hparts _ _ _ hyear ⟨hlength.1, le_rfl⟩
    · exact hparts _ _ _ (by omega) ⟨by decide, le_rfl⟩

def leapDay : Date :=
  ⟨2024, 2, 29, by decide, by decide⟩

end Date

end Alerting
