import Alerting.Proofs.Calendar.Periods
import Alerting.Rule.Condition
/-!
# How often a time condition is met

Looked at once in every minute, a condition is met once on each day of its schedule.  So over a week
or a month it is met as often as there are different days in its list that are days of a week or of
that month, and no other entry of the list counts.
-/

namespace Alerting

namespace Calendar

/-- Times of some days, one in each minute and in any order. -/
def EveryMinute (dates : List Date) (times : List DateTime) : Prop :=
  (times.map fun t => (t.date, t.hour, t.minute)).Perm (dates ×ˢ List.range 24 ×ˢ List.range 60)

def minuteStarts (dates : List Date) : List DateTime :=
  (dates ×ˢ List.range 24 ×ˢ List.range 60).map fun m => ⟨m.1, m.2.1, m.2.2, 0⟩

theorem everyMinute_minuteStarts (dates : List Date) : EveryMinute dates (minuteStarts dates) := by
  unfold EveryMinute minuteStarts
  rw [List.map_map]
  exact List.Perm.of_eq (List.map_id _)

end Calendar

namespace Rule

open Calendar

/-! ## Counting -/

theorem countP_product {α β : Type} (p : α → Bool) (q : β → Bool) (l : List α) (l' : List β) :
    (l ×ˢ l').countP (fun e => p e.1 && q e.2) = l.countP p * l'.countP q := by
  induction l with
  | nil => rw [List.nil_product, List.countP_nil, List.countP_nil, Nat.zero_mul]
  | cons a l ih =>
      have hhead : (l'.map (Prod.mk a)).countP (fun e => p e.1 && q e.2) =
          if p a then l'.countP q else 0 := by
        rw [List.countP_map]
        cases hp : p a <;> simp [Function.comp_def, hp]
      rw [List.product_cons, List.countP_append, ih, hhead, List.countP_cons]
      split
      · rw [Nat.add_mul, Nat.one_mul, Nat.add_comm]
      · rw [Nat.zero_add, Nat.add_zero]

theorem countP_range_beq (n k : Nat) :
    (List.range n).countP (· == k) = if k < n then 1 else 0 := by
  change (List.range n).count k = _
  rw [List.nodup_range.count]
  simp only [List.mem_range]

/-- Which numbers are in a list is counted by its different members. -/
theorem countP_contains {l : List Nat} (h : l.Nodup) (days : List Nat) :
    l.countP days.contains = (days.toFinset.filter (· ∈ l)).card := by
  have hfilter : (l.filter days.contains).toFinset = days.toFinset.filter (· ∈ l) := by
    ext day
    simp [and_comm]
  rw [List.countP_eq_length_filter, ← hfilter, List.toFinset_card_of_nodup (h.filter _)]

/-! ## Days of a schedule -/

/-- Whether a condition with this schedule can be met on a day. -/
def Schedule.holdsOn : Schedule → Date → Bool
  | daily, _ => true
  | weekly days, d => days.contains d.weekday
  | monthly days, d => days.contains d.day

/-- How often a condition is met, unless it is forced. -/
def TimeCondition.firings (c : TimeCondition) (times : List DateTime) : Nat :=
  times.countP (c.isMetAt · false)

namespace TimeCondition

variable {c : TimeCondition}

theorem isMetAt_of_enabled (henabled : c.enabled = true) (t : DateTime) :
    c.isMetAt t false =
      (c.schedule.holdsOn t.date && (t.hour == c.hour && t.minute == c.minute)) := by
  unfold isMetAt Schedule.holdsOn
  rw [henabled, Bool.and_comm]
  cases c.schedule <;> rfl

/-- In every minute, a condition is met once on each day of its schedule. -/
theorem firings_eq (henabled : c.enabled = true) (hhour : c.hour < 24) (hminute : c.minute < 60)
    {dates : List Date} {times : List DateTime} (htimes : EveryMinute dates times) :
    c.firings times = dates.countP c.schedule.holdsOn := by
  let isMetIn (m : Date × Nat × Nat) : Bool :=
    c.schedule.holdsOn m.1 && (m.2.1 == c.hour && m.2.2 == c.minute)
  have hmet : (c.isMetAt · false) = isMetIn ∘ fun t => (t.date, t.hour, t.minute) :=
    funext (isMetAt_of_enabled henabled)
  calc c.firings times
      = (times.map fun t => (t.date, t.hour, t.minute)).countP isMetIn := by
        unfold firings
        rw [hmet, List.countP_map]
    _ = (dates ×ˢ List.range 24 ×ˢ List.range 60).countP isMetIn := htimes.countP_eq _
    _ = dates.countP c.schedule.holdsOn * (1 * 1) := by
        rw [countP_product _ (fun m : Nat × Nat => m.1 == c.hour && m.2 == c.minute),
          countP_product (· == c.hour) (· == c.minute), countP_range_beq, countP_range_beq,
          if_pos hhour, if_pos hminute]
    _ = dates.countP c.schedule.holdsOn := Nat.mul_one _

/-- On no day there is an hour or a minute beyond the last. -/
theorem isMetAt_of_never (henabled : c.enabled = true) (hnever : 24 ≤ c.hour ∨ 60 ≤ c.minute)
    {t : DateTime} (hhour : t.hour < 24) (hminute : t.minute < 60) : c.isMetAt t false = false := by
  rw [isMetAt_of_enabled henabled, Bool.and_eq_false_iff, Bool.and_eq_false_iff,
    beq_eq_false_iff_ne, beq_eq_false_iff_ne]
  omega

/-- Of the days of a week only those from 0 to 6 count, and each of them once. -/
theorem isMetAt_weekly_congr {days days' : List Nat}
    (h : ∀ day ≤ 6, day ∈ days ↔ day ∈ days') (t : DateTime) (force : Bool) :
    { c with schedule := .weekly days }.isMetAt t force =
      { c with schedule := .weekly days' }.isMetAt t force := by
  have hdays : days.contains t.date.weekday = days'.contains t.date.weekday := by
    rw [Bool.eq_iff_iff, List.contains_iff_mem, List.contains_iff_mem]
    exact h _ (weekday_le t.date)
  unfold isMetAt
  dsimp only
  rw [hdays]

/-- Of the days of a month only those count that it has, and each of them once. -/
theorem isMetAt_monthly_congr {days days' : List Nat} {t : DateTime}
    (h : ∀ day, 1 ≤ day ∧ day ≤ daysInMonth t.date.year t.date.month → (day ∈ days ↔ day ∈ days'))
    (force : Bool) :
    { c with schedule := .monthly days }.isMetAt t force =
      { c with schedule := .monthly days' }.isMetAt t force := by
  have hdays : days.contains t.date.day = days'.contains t.date.day := by
    rw [Bool.eq_iff_iff, List.contains_iff_mem, List.contains_iff_mem]
    exact h _ t.date.day_mem
  unfold isMetAt
  dsimp only
  rw [hdays]

theorem countP_weekly {dates : List Date} (h : IsConsecutive dates) (hlength : dates.length = 7)
    (days : List Nat) :
    dates.countP (Schedule.weekly days).holdsOn = (days.toFinset.filter (· ≤ 6)).card := by
  calc dates.countP (Schedule.weekly days).holdsOn
      = (dates.map Date.weekday).countP days.contains := by
        rw [List.countP_map]
        rfl
    _ = (List.range 7).countP days.contains := (h.perm_weekday hlength).countP_eq _
    _ = (days.toFinset.filter (· ∈ List.range 7)).card := countP_contains List.nodup_range days
    _ = (days.toFinset.filter (· ≤ 6)).card := by
        simp only [List.mem_range, Nat.lt_succ_iff]

theorem countP_monthly {d : Date} {dates : List Date} (h : IsMonthOf d dates) (days : List Nat) :
    dates.countP (Schedule.monthly days).holdsOn =
      (days.toFinset.filter fun day => 1 ≤ day ∧ day ≤ dates.length).card := by
  calc dates.countP (Schedule.monthly days).holdsOn
      = (dates.map Date.day).countP days.contains := by
        rw [List.countP_map]
        rfl
    _ = (List.range' 1 dates.length).countP days.contains := by
        rw [h.length_eq]
        exact h.perm_day.countP_eq _
    _ = (days.toFinset.filter (· ∈ List.range' 1 dates.length)).card :=
        countP_contains List.nodup_range' days
    _ = (days.toFinset.filter fun day => 1 ≤ day ∧ day ≤ dates.length).card := by
        simp only [List.mem_range'_1, Nat.lt_add_one_iff, Nat.add_comm 1]

/-- Looked at once in every minute, a daily condition is met once a day, a weekly one as often in a
week as there are different days from 0 to 6 in its list, and a monthly one as often in a month as
there are different days of that month in its list.  A condition at no time of day is never met, and
nothing else in the list of days has a say. -/
theorem firings_of_everyMinute (henabled : c.enabled = true) {dates : List Date}
    {times : List DateTime} (htimes : EveryMinute dates times) :
    (c.hour < 24 → c.minute < 60 →
      (c.schedule = .daily → dates.length = 1 → c.firings times = 1) ∧
      (∀ days, c.schedule = .weekly days → IsConsecutive dates → dates.length = 7 →
        c.firings times = (days.toFinset.filter (· ≤ 6)).card) ∧
      (∀ days d, c.schedule = .monthly days → IsMonthOf d dates →
        dates.length = daysInMonth d.year d.month ∧
        c.firings times = (days.toFinset.filter fun day => 1 ≤ day ∧ day ≤ dates.length).card)) ∧
    (24 ≤ c.hour ∨ 60 ≤ c.minute →
      ∀ t : DateTime, t.hour < 24 → t.minute < 60 → c.isMetAt t false = false) ∧
    ∀ (t : DateTime) (days days' : List Nat),
      ((∀ day ≤ 6, day ∈ days ↔ day ∈ days') →
        { c with schedule := .weekly days }.isMetAt t false =
          { c with schedule := .weekly days' }.isMetAt t false) ∧
      ((∀ day, 1 ≤ day ∧ day ≤ daysInMonth t.date.year t.date.month →
          (day ∈ days ↔ day ∈ days')) →
        { c with schedule := .monthly days }.isMetAt t false =
          { c with schedule := .monthly days' }.isMetAt t false) := by
  refine ⟨fun hhour hminute => ⟨fun hdaily hlength => ?_, fun days hweekly hdates hlength => ?_,
    fun days d hmonthly hdates => ⟨hdates.length_eq, ?_⟩⟩, fun hnever t => ?_,
    fun t days days' => ⟨fun hdays => ?_, fun hdays => ?_⟩⟩
  · rw [firings_eq henabled hhour hminute htimes, hdaily, ← hlength]
    exact congrFun List.countP_true dates
  · rw [firings_eq henabled hhour hminute htimes, hweekly, countP_weekly hdates hlength]
  · rw [firings_eq henabled hhour hminute htimes, hmonthly, countP_monthly hdates]
  · exact isMetAt_of_never henabled hnever
  · exact isMetAt_weekly_congr hdays t false
  · exact isMetAt_monthly_congr hdays false

/-- Of five entries for the days of a month, two name days of the February of a leap year. -/
theorem firings_of_everyMinute_leapMonth :
    let c : TimeCondition := { hour := 9, schedule := .monthly [29, 30, 29, 0, 1] }
    let dates := monthDays Date.leapDay
    c.enabled = true ∧ EveryMinute dates (minuteStarts dates) ∧
      c.firings (minuteStarts dates) = 2 := by
  intro c dates
  have htimes := everyMinute_minuteStarts dates
  obtain ⟨hlength, hfirings⟩ := ((firings_of_everyMinute (c := c) rfl htimes).1 (by decide)
    (by decide)).2.2 _ _ rfl (isMonthOf_monthDays Date.leapDay)
  have hdays : dates.length = 29 := hlength
  rw [hdays] at hfirings
  exact ⟨rfl, htimes, hfirings⟩

end TimeCondition

end Rule

end Alerting
