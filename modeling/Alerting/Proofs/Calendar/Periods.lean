import Alerting.Proofs.Calendar.Order
/-!
# Weeks and months

Seven days that follow one another have each day of the week once, and the days of a month are
numbered from 1 to its length.
-/

namespace Alerting

namespace Calendar

/-- Days of which each is the day after the one before it. -/
def IsConsecutive (dates : List Date) : Prop :=
  dates.IsChain fun d e => d.next? = some e

/-- The days of the month in which some day lies, each of them once. -/
structure IsMonthOf (d : Date) (dates : List Date) : Prop where
  nodup : dates.Nodup
  mem_iff : ∀ e, e ∈ dates ↔ e.year = d.year ∧ e.month = d.month

/-! ## Weeks -/

theorem weekday_le (d : Date) : d.weekday ≤ 6 := by
  unfold Date.weekday
  omega

theorem IsConsecutive.exists_start {dates : List Date} (h : IsConsecutive dates) :
    ∃ start : Int, dates.map Date.dayNumber =
      (List.range dates.length).map fun i : Nat => start + i := by
  induction dates with
  | nil => exact ⟨0, rfl⟩
  | cons d rest ih =>
      cases rest with
      | nil => exact ⟨d.dayNumber, by simp⟩
      | cons e rest =>
          obtain ⟨hnext, hrest⟩ := List.isChain_cons_cons.mp h
          obtain ⟨start, hstart⟩ := ih hrest
          have he : e.dayNumber = start := by
            have hhead := congrArg List.head? hstart
            simpa [List.range_succ_eq_map] using hhead
          have hrange : List.range (d :: e :: rest).length =
              0 :: (List.range (e :: rest).length).map Nat.succ := List.range_succ_eq_map
          refine ⟨start - 1, ?_⟩
          rw [List.map_cons, hstart, hrange, List.map_cons, List.map_map]
          refine List.cons_eq_cons.mpr ⟨?_, List.map_congr_left fun i _ => ?_⟩
          · have hd := Date.dayNumber_of_next? hnext
            push_cast
            omega
          · rw [Function.comp_apply]
            push_cast
            omega

/-- In seven consecutive days there is each day of the week. -/
theorem IsConsecutive.perm_weekday {dates : List Date} (h : IsConsecutive dates)
    (hlength : dates.length = 7) : (dates.map Date.weekday).Perm (List.range 7) := by
  obtain ⟨start, hstart⟩ := h.exists_start
  have hweekdays : dates.map Date.weekday =
      (List.range 7).map fun i : Nat => ((start + i) % 7).toNat := by
    have hmap := congrArg (List.map fun n : Int => (n % 7).toNat) hstart
    rwa [List.map_map, List.map_map, hlength] at hmap
  rw [hweekdays, List.perm_ext_iff_of_nodup ?_ List.nodup_range]
  · intro k
    rw [List.mem_map, List.mem_range]
    constructor
    · rintro ⟨i, -, rfl⟩
      omega
    · intro hk
      exact ⟨((k - start) % 7).toNat, List.mem_range.mpr (by omega), by omega⟩
  · refine List.Nodup.map_on ?_ List.nodup_range
    intro i hi j hj hij
    rw [List.mem_range] at hi hj
    omega

/-! ## Months -/

/-- The days of a month are numbered from 1 up. -/
theorem IsMonthOf.perm_day {d : Date} {dates : List Date} (h : IsMonthOf d dates) :
    (dates.map Date.day).Perm (List.range' 1 (daysInMonth d.year d.month)) := by
  rw [List.perm_ext_iff_of_nodup ?_ List.nodup_range']
  · intro k
    rw [List.mem_map, List.mem_range'_1]
    constructor
    · rintro ⟨e, he, rfl⟩
      obtain ⟨hyear, hmonth⟩ := (h.mem_iff e).mp he
      have hday := e.day_mem
      rw [hyear, hmonth] at hday
      omega
    · intro hk
      have hmem : 1 ≤ k ∧ k ≤ daysInMonth d.year d.month := by omega
      exact ⟨⟨d.year, d.month, k, d.year_mem, hmem⟩, (h.mem_iff _).mpr ⟨rfl, rfl⟩, rfl⟩
  · refine List.Nodup.map_on ?_ h.nodup
    intro e he f hf hday
    obtain ⟨hyear, hmonth⟩ := (h.mem_iff e).mp he
    obtain ⟨hyear', hmonth'⟩ := (h.mem_iff f).mp hf
    exact Date.ext (hyear.trans hyear'.symm) (hmonth.trans hmonth'.symm) hday

theorem IsMonthOf.length_eq {d : Date} {dates : List Date} (h : IsMonthOf d dates) :
    dates.length = daysInMonth d.year d.month := by
  have hlength := h.perm_day.length_eq
  rwa [List.length_map, List.length_range'] at hlength

def monthDays (d : Date) : List Date :=
  (List.finRange (daysInMonth d.year d.month)).map fun i : Fin (daysInMonth d.year d.month) =>
    ⟨d.year, d.month, i.val + 1, d.year_mem, Nat.le_add_left 1 i.val, i.isLt⟩

theorem isMonthOf_monthDays (d : Date) : IsMonthOf d (monthDays d) where
  nodup := by
    refine List.Nodup.map_on ?_ (List.nodup_finRange _)
    intro i _ j _ hij
    exact Fin.ext (Nat.succ_injective (congrArg Date.day hij))
  mem_iff e := by
    unfold monthDays
    rw [List.mem_map]
    constructor
    · rintro ⟨i, -, rfl⟩
      exact ⟨rfl, rfl⟩
    · rintro ⟨hyear, hmonth⟩
      have hday := e.day_mem
      rw [hyear, hmonth] at hday
      refine ⟨(⟨e.day - 1, by omega⟩ : Fin (daysInMonth d.year d.month)), List.mem_finRange _,
        Date.ext hyear.symm hmonth.symm ?_⟩
      exact Nat.sub_add_cancel hday.1

end Calendar

end Alerting
