import Converge.Timestamp
/-!
# The calendar

A number of days is split into cycles of 400 years and a `CycleDay`, so that the divisions of
`dateOfDay` can be followed one by one.  Main statements: every number of days has a date that
exists (`isDate_dateOfDay`) and that is the date of just these days (`dayOfDate_dateOfDay`).
-/

namespace Converge.Timestamp

/-! ## Days of a cycle -/

/-- A day of a cycle of 400 years, counted from a first of March: the leap day ends a span of four
years, and it is left out at the end of a century unless the cycle ends with it. -/
structure CycleDay where
  century : Int
  four : Int
  year : Int
  day : Int
  century_mem : 0 ≤ century ∧ century ≤ 3
  four_mem : 0 ≤ four ∧ four ≤ 24
  year_mem : 0 ≤ year ∧ year ≤ 3
  day_mem : 0 ≤ day ∧ day ≤ 365
  leap : day = 365 → year = 3 ∧ (four < 24 ∨ century = 3)

namespace CycleDay

/-- The days of the cycle before it. -/
def number (d : CycleDay) : Int :=
  36524 * d.century + 1461 * d.four + 365 * d.year + d.day

/-- The years of the cycle before its year. -/
def fullYears (d : CycleDay) : Int :=
  100 * d.century + 4 * d.four + d.year

theorem exists_number_eq {n : Int} (h : 0 ≤ n ∧ n ≤ 146096) : ∃ d : CycleDay, d.number = n := by
  -- the last century and the last year of four are a day longer, so the quotient is cut off
  let century := min (n / 36524) 3
  let rest := n - 36524 * century
  let year := min (rest % 1461 / 365) 3
  refine ⟨⟨century, rest / 1461, year, rest % 1461 - 365 * year, ?_, ?_, ?_, ?_, ?_⟩, ?_⟩
  case refine_6 => simp only [number]; omega
  all_goals omega

/-- The year that the day stands in is found by its number. -/
theorem fullYears_eq (d : CycleDay) :
    (d.number - d.number / 1460 + d.number / 36524 - d.number / 146096) / 365 = d.fullYears := by
  obtain ⟨century, four, year, day, hcentury, hfour, hyear, hday, hleap⟩ := d
  simp only [number, fullYears]
  generalize hn : 36524 * century + 1461 * four + 365 * year + day = n
  have hspans : n / 1460 = 25 * century + four ∨ n / 1460 = 25 * century + four + 1 := by omega
  have hcenturies : n / 36524 - n / 146096 = century := by
    obtain rfl | rfl | rfl | rfl : century = 0 ∨ century = 1 ∨ century = 2 ∨ century = 3 := by omega
    all_goals omega
  omega

theorem fullYears_mem (d : CycleDay) : 0 ≤ d.fullYears ∧ d.fullYears ≤ 399 := by
  obtain ⟨century, four, year, day, hcentury, hfour, hyear, hday, hleap⟩ := d
  simp only [fullYears]
  omega

theorem day_eq (d : CycleDay) :
    d.number - (365 * d.fullYears + d.fullYears / 4 - d.fullYears / 100) = d.day := by
  obtain ⟨century, four, year, day, hcentury, hfour, hyear, hday, hleap⟩ := d
  simp only [number, fullYears]
  omega

/-- The year before a leap day ends in a leap year. -/
theorem isLeapYear_of_day (d : CycleDay) (cycle : Int) (h : d.day = 365) :
    isLeapYear (d.fullYears + cycle * 400 + 1) = true := by
  obtain ⟨century, four, year, day, hcentury, hfour, hyear, hday, hleap⟩ := d
  obtain ⟨hyear, hlast⟩ := hleap h
  simp only [fullYears, isLeapYear, Bool.and_eq_true, Bool.or_eq_true, beq_iff_eq, bne_iff_ne]
  omega

end CycleDay

/-! ## Dates -/

/-- The date of a day of a cycle. -/
theorem dateOfDay_eq (cycle : Int) (d : CycleDay) :
    dateOfDay (cycle * 146097 + d.number - 719468) =
      let monthFromMarch := (5 * d.day + 2) / 153
      let month := if monthFromMarch < 10 then monthFromMarch + 3 else monthFromMarch - 9
      (d.fullYears + cycle * 400 + (if month ≤ 2 then 1 else 0), month.toNat,
        (d.day - (153 * monthFromMarch + 2) / 5 + 1).toNat) := by
  have hnumber : 0 ≤ d.number ∧ d.number ≤ 146096 := by
    obtain ⟨century, four, year, day, hcentury, hfour, hyear, hday, hleap⟩ := d
    simp only [CycleDay.number]
    omega
  have hcycle : (cycle * 146097 + d.number - 719468 + 719468).fdiv 146097 = cycle := by
    rw [Int.fdiv_eq_ediv_of_nonneg _ (by decide)]
    omega
  have hrest : cycle * 146097 + d.number - 719468 + 719468 - cycle * 146097 = d.number := by omega
  simp only [dateOfDay, hcycle, hrest, d.fullYears_eq, d.day_eq]

/-- A date that exists. -/
structure IsDate (year : Int) (month day : Nat) : Prop where
  month_mem : 1 ≤ month ∧ month ≤ 12
  day_mem : 1 ≤ day ∧ day ≤ daysInMonth year month

theorem exists_eq_cycle (days : Int) :
    ∃ cycle, ∃ d : CycleDay, days = cycle * 146097 + d.number - 719468 := by
  obtain ⟨d, hd⟩ := CycleDay.exists_number_eq (n := (days + 719468) % 146097) (by omega)
  exact ⟨(days + 719468) / 146097, d, by omega⟩

theorem isDate_dateOfDay (days : Int) :
    IsDate (dateOfDay days).1 (dateOfDay days).2.1 (dateOfDay days).2.2 := by
  obtain ⟨cycle, d, rfl⟩ := exists_eq_cycle days
  rw [dateOfDay_eq]
  have hday := d.day_mem
  dsimp only
  generalize hmonth : (5 * d.day + 2) / 153 = month
  obtain rfl | rfl | rfl | rfl | rfl | rfl | rfl | rfl | rfl | rfl | rfl | rfl :
      month = 0 ∨ month = 1 ∨ month = 2 ∨ month = 3 ∨ month = 4 ∨ month = 5 ∨ month = 6 ∨
        month = 7 ∨ month = 8 ∨ month = 9 ∨ month = 10 ∨ month = 11 := by omega
  -- counted from March, the last month is February
  case inr.inr.inr.inr.inr.inr.inr.inr.inr.inr.inr =>
    refine ⟨by simp, ?_⟩
    by_cases hleap : d.day = 365
    · have := d.isLeapYear_of_day cycle hleap
      simp [daysInMonth, this]
      omega
    · simp [daysInMonth]
      split <;> omega
  all_goals
    refine ⟨by simp, ?_⟩
    simp [daysInMonth]
    omega

theorem dayOfDate_dateOfDay (days : Int) :
    dayOfDate (dateOfDay days).1 (dateOfDay days).2.1 (dateOfDay days).2.2 = days := by
  obtain ⟨cycle, d, rfl⟩ := exists_eq_cycle days
  rw [dateOfDay_eq]
  have hday := d.day_mem
  have hyears := d.fullYears_mem
  have hd := d.day_eq
  dsimp only [dayOfDate]
  generalize hmonth : (5 * d.day + 2) / 153 = month
  have hcycle : (d.fullYears + cycle * 400).fdiv 400 = cycle := by
    rw [Int.fdiv_eq_ediv_of_nonneg _ (by decide)]
    omega
  -- January and February belong to the year that began in the March before
  by_cases hlate : month < 10
  · have h1 : ¬ (month + 3).toNat ≤ 2 := by omega
    have h2 : ¬ month + 3 ≤ 2 := by omega
    have h3 : (month + 3).toNat > 2 := by omega
    simp only [if_pos hlate, if_neg h1, if_neg h2, if_pos h3, Int.add_zero, hcycle]
    omega
  · have h1 : (month - 9).toNat ≤ 2 := by omega
    have h2 : month - 9 ≤ 2 := by omega
    have h3 : ¬ (month - 9).toNat > 2 := by omega
    simp only [if_neg hlate, if_pos h1, if_pos h2, if_neg h3, Int.add_sub_cancel, hcycle]
    omega

end Converge.Timestamp
