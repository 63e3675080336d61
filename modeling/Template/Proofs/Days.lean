import Mathlib.Algebra.Order.Group.Nat
import Mathlib.Data.Nat.ModEq
import Mathlib.Tactic.ByContra
import Template.Calendar.Date

/-!
# `Template.Proofs.Days` — days and their numbers

The days are numbered without a gap: a year starts where the one before it ends, and so does a month. So a number
belongs to one year, one month of it and one day of that, and this is all that there is to finding the day of a number
(`Date.ofDayNumber?_eq_some_iff`). Counting months through the years, every month starts behind the end of the one
before, and days are in the order of their months (`Date.dayNumber_lt_of_monthIndex`).

## Contents
- `daysInYear`, `daysBeforeYear_succ`, `daysBeforeMonth_succ` — years and months follow one another.
- `exists_year`, `exists_month` — every number falls into a year, and into a month of it.
- `ofDayNumber?_of_parts`, `Date.ofDayNumber?_eq_some_iff` — the day of a number.
- `monthIndex`, `Date.dayNumber_lt_of_monthIndex` — months counted through the years.
-/

namespace Template.Calendar

/-! ## Years -/

/-- The length of a year. -/
def daysInYear (year : ℕ) : ℕ :=
  if isLeap year then 366 else 365

theorem isLeap_iff (year : ℕ) : isLeap year = true ↔ 4 ∣ year ∧ (¬100 ∣ year ∨ 400 ∣ year) := by
  simp [isLeap, Nat.dvd_iff_mod_eq_zero]

theorem daysInYear_bounds (year : ℕ) : 365 ≤ daysInYear year ∧ daysInYear year ≤ 366 := by
  unfold daysInYear
  split <;> omega

/-- A year has a day more for each of its rows of four and of four hundred years that it ends, and a day less for the
century. -/
theorem daysInYear_eq (year : ℕ) :
    daysInYear year + (if 100 ∣ year then 1 else 0) =
      365 + (if 4 ∣ year then 1 else 0) + if 400 ∣ year then 1 else 0 := by
  have h4 : 100 ∣ year → 4 ∣ year := Nat.dvd_trans (by decide)
  have h100 : 400 ∣ year → 100 ∣ year := Nat.dvd_trans (by decide)
  unfold daysInYear
  by_cases hcentury : 100 ∣ year
  · have hfours := h4 hcentury
    by_cases hcycle : 400 ∣ year
    · simp [isLeap_iff, hfours, hcentury, hcycle]
    · simp [isLeap_iff, hfours, hcentury, hcycle]
  · have hcycle : ¬400 ∣ year := fun h => hcentury (h100 h)
    by_cases hfours : 4 ∣ year
    · simp [isLeap_iff, hfours, hcentury, hcycle]
    · simp [isLeap_iff, hfours, hcentury, hcycle]

/-- A year starts where the one before it ends. -/
theorem daysBeforeYear_succ {year : ℕ} (h : 1 ≤ year) :
    daysBeforeYear (year + 1) = daysBeforeYear year + daysInYear year := by
  obtain ⟨before, rfl⟩ := Nat.exists_eq_add_of_le' h
  have hlength := daysInYear_eq (before + 1)
  have hone : (if 100 ∣ before + 1 then 1 else 0) ≤ 1 := by split <;> decide
  have hle : before / 100 ≤ before / 4 := Nat.div_le_div_left (by decide) (by decide)
  unfold daysBeforeYear
  rw [Nat.add_sub_cancel, Nat.add_sub_cancel, Nat.succ_div, Nat.succ_div, Nat.succ_div]
  generalize before / 4 = fours at hle ⊢
  generalize before / 100 = centuries at hle ⊢
  omega

theorem daysBeforeYear_le {a b : ℕ} (ha : 1 ≤ a) (h : a ≤ b) : daysBeforeYear a ≤ daysBeforeYear b := by
  induction b, h using Nat.le_induction with
  | base => exact Nat.le_refl _
  | succ b hb ih =>
    rw [daysBeforeYear_succ (Nat.le_trans ha hb)]
    omega

/-- Every number falls into a year. -/
theorem exists_year (number : ℕ) :
    ∃ year dayOfYear, 1 ≤ year ∧ dayOfYear < daysInYear year ∧ number = daysBeforeYear year + dayOfYear := by
  induction number with
  | zero => exact ⟨1, 0, Nat.le_refl 1, by decide, rfl⟩
  | succ number ih =>
    obtain ⟨year, dayOfYear, hyear, hday, rfl⟩ := ih
    by_cases hlast : dayOfYear + 1 < daysInYear year
    · exact ⟨year, dayOfYear + 1, hyear, hlast, by omega⟩
    · -- the next day starts a year
      refine ⟨year + 1, 0, by omega, ?_, ?_⟩
      · have := (daysInYear_bounds (year + 1)).1
        omega
      · rw [daysBeforeYear_succ hyear]
        omega

/-! ## Months -/

theorem daysInMonth_bounds (year month : ℕ) : 28 ≤ daysInMonth year month ∧ daysInMonth year month ≤ 31 := by
  unfold daysInMonth
  split
  · split <;> omega
  · omega
  · omega
  · omega
  · omega
  · omega

/-- A month starts where the one before it ends. -/
theorem daysBeforeMonth_succ (year : ℕ) {month : ℕ} (h : 1 ≤ month) :
    daysBeforeMonth year (month + 1) = daysBeforeMonth year month + daysInMonth year month := by
  cases month with
  | zero => omega
  | succ month => rfl

/-- The twelve months fill the year. -/
theorem daysBeforeMonth_thirteen (year : ℕ) : daysBeforeMonth year 13 = daysInYear year := by
  simp only [daysBeforeMonth, daysInMonth, daysInYear]
  split <;> rfl

theorem daysBeforeMonth_le (year : ℕ) {a b : ℕ} (ha : 1 ≤ a) (h : a ≤ b) :
    daysBeforeMonth year a ≤ daysBeforeMonth year b := by
  induction b, h using Nat.le_induction with
  | base => exact Nat.le_refl _
  | succ b hb ih =>
    rw [daysBeforeMonth_succ year (Nat.le_trans ha hb)]
    omega

/-- Every day of the first months of a year falls into one of them. -/
theorem exists_month (year : ℕ) {dayOfYear months : ℕ} (h : dayOfYear < daysBeforeMonth year (months + 1)) :
    ∃ month, 1 ≤ month ∧ month ≤ months ∧ daysBeforeMonth year month ≤ dayOfYear ∧
      dayOfYear < daysBeforeMonth year (month + 1) := by
  induction months with
  | zero => exact absurd h (Nat.not_lt_zero _)
  | succ months ih =>
    by_cases hearlier : dayOfYear < daysBeforeMonth year (months + 1)
    · obtain ⟨month, hfirst, hlast, hmonth⟩ := ih hearlier
      exact ⟨month, hfirst, by omega, hmonth⟩
    · -- the last of the months has begun as well
      exact ⟨months + 1, by omega, Nat.le_refl _, Nat.le_of_not_lt hearlier, h⟩

theorem exists_month_of_year {year dayOfYear : ℕ} (h : dayOfYear < daysInYear year) :
    ∃ month, 1 ≤ month ∧ month ≤ 12 ∧ daysBeforeMonth year month ≤ dayOfYear ∧
      dayOfYear < daysBeforeMonth year (month + 1) := by
  rw [← daysBeforeMonth_thirteen] at h
  exact exists_month year h

/-- The month of a day is the last one that has begun. -/
theorem monthOfDay_eq {year dayOfYear month last : ℕ} (hfirst : 1 ≤ month) (hlast : month ≤ last)
    (hbegun : daysBeforeMonth year month ≤ dayOfYear) (hend : dayOfYear < daysBeforeMonth year (month + 1)) :
    monthOfDay year dayOfYear last = month := by
  induction last, hlast using Nat.le_induction with
  | base =>
    cases month with
    | zero => omega
    | succ month => rw [monthOfDay, if_pos hbegun]
  | succ last hle ih =>
    -- no later month has begun
    have := daysBeforeMonth_le year (by omega) (Nat.succ_le_succ hle)
    simp only [Nat.succ_eq_add_one] at this
    rw [monthOfDay, if_neg (by omega), ih]

/-! ## The day of a number -/

/-- The number of a day in centuries and shorter rows of years gives the year back.

A century that is not the last of its four has no leap year at its end, and the last day of a leap year would otherwise
be counted to a fourth year of 365 days, or to a fifth century: both counts stop at three. -/
theorem ofDayNumber?_of_parts {number year dayOfYear : ℕ} (hyear : 1 ≤ year) (hday : dayOfYear < daysInYear year)
    (hnumber : number = daysBeforeYear year + dayOfYear) :
    Date.ofDayNumber? number =
      Date.make? year (monthOfDay year dayOfYear 12)
        (dayOfYear - daysBeforeMonth year (monthOfDay year dayOfYear 12) + 1) := by
  obtain ⟨cycles, centuries, years4, years, hcenturies, hyears4, hyears, rfl⟩ :
      ∃ cycles centuries years4 years, centuries ≤ 3 ∧ years4 ≤ 24 ∧ years ≤ 3 ∧
        year = cycles * 400 + centuries * 100 + years4 * 4 + years + 1 :=
    ⟨(year - 1) / 400, (year - 1) % 400 / 100, (year - 1) % 100 / 4, (year - 1) % 4, by omega⟩
  have hbefore : daysBeforeYear (cycles * 400 + centuries * 100 + years4 * 4 + years + 1) =
      cycles * 146097 + centuries * 36524 + years4 * 1461 + years * 365 := by
    unfold daysBeforeYear
    omega
  have hlength : dayOfYear < 365 ∨ dayOfYear = 365 ∧ years = 3 ∧ (years4 ≠ 24 ∨ centuries = 3) := by
    unfold daysInYear at hday
    split at hday
    · rename_i hleap
      rw [isLeap_iff] at hleap
      omega
    · exact .inl hday
  have hcycles : number / 146097 = cycles := by omega
  have hrest : number % 146097 = centuries * 36524 + years4 * 1461 + years * 365 + dayOfYear := by omega
  have hcount : min (number % 146097 / 36524) 3 = centuries := by omega
  have hrest4 : number % 146097 - centuries * 36524 = years4 * 1461 + years * 365 + dayOfYear := by omega
  have hcount4 : (years4 * 1461 + years * 365 + dayOfYear) / 1461 = years4 := by omega
  have hrest1 : (years4 * 1461 + years * 365 + dayOfYear) % 1461 = years * 365 + dayOfYear := by omega
  have hcount1 : min ((years * 365 + dayOfYear) / 365) 3 = years := by omega
  unfold Date.ofDayNumber?
  dsimp only
  rw [hcount, hrest4, hcount4, hrest1, hcount1, hcycles, Nat.add_sub_cancel_left]

namespace Date

theorem make?_eq_some_iff {year month day : ℕ} {date : Date} :
    make? year month day = some date ↔ date.year = year ∧ date.month = month ∧ date.day = day := by
  unfold make?
  constructor
  · intro h
    split at h
    · cases h
      exact ⟨rfl, rfl, rfl⟩
    · cases h
  · rintro ⟨rfl, rfl, rfl⟩
    rw [dif_pos date.isDay]

/-- A day is behind the start of its month, and in front of the start of the next one. -/
theorem month_bounds (date : Date) :
    daysBeforeMonth date.year date.month ≤ daysBeforeMonth date.year date.month + (date.day - 1) ∧
      daysBeforeMonth date.year date.month + (date.day - 1) < daysBeforeMonth date.year (date.month + 1) := by
  have h := date.isDay
  rw [daysBeforeMonth_succ _ h.2.2.1]
  omega

/-- A day is behind the start of its year, and in front of the start of the next one. -/
theorem year_bounds (date : Date) :
    daysBeforeMonth date.year date.month + (date.day - 1) < daysInYear date.year := by
  rw [← daysBeforeMonth_thirteen]
  exact Nat.lt_of_lt_of_le date.month_bounds.2 (daysBeforeMonth_le _ (by omega) (Nat.succ_le_succ date.isDay.2.2.2.1))

/-- **The number of a day leads back to that day.** -/
theorem ofDayNumber?_dayNumber (date : Date) : ofDayNumber? date.dayNumber = some date := by
  have hday := date.isDay
  obtain ⟨hbegun, hend⟩ := date.month_bounds
  have hnumber : date.dayNumber =
      daysBeforeYear date.year + (daysBeforeMonth date.year date.month + (date.day - 1)) := Nat.add_assoc _ _ _
  rw [ofDayNumber?_of_parts hday.1 date.year_bounds hnumber, monthOfDay_eq hday.2.2.1 hday.2.2.2.1 hbegun hend,
    make?_eq_some_iff]
  exact ⟨rfl, rfl, by omega⟩

/-- The last day of the year 9999 is the last one with a number. -/
theorem dayNumber_lt (date : Date) : date.dayNumber < 3652059 := by
  have hday := date.isDay
  have hyear := daysBeforeYear_le (by omega : 1 ≤ date.year + 1) (Nat.succ_le_succ hday.2.1)
  rw [daysBeforeYear_succ hday.1, show daysBeforeYear (9999 + 1) = 3652059 from rfl] at hyear
  have := date.year_bounds
  unfold dayNumber
  omega

/-- Every number up to the last one is the number of a day. -/
theorem exists_dayNumber {number : ℕ} (h : number < 3652059) : ∃ date : Date, date.dayNumber = number := by
  obtain ⟨year, dayOfYear, hyear, hday, rfl⟩ := exists_year number
  have hlast : year ≤ 9999 := by
    by_contra hlate
    have := daysBeforeYear_le (by omega) (by omega : 10000 ≤ year)
    rw [show daysBeforeYear 10000 = 3652059 from rfl] at this
    omega
  obtain ⟨month, hfirst, hmonths, hbegun, hend⟩ := exists_month_of_year hday
  rw [daysBeforeMonth_succ year hfirst] at hend
  refine ⟨⟨year, month, dayOfYear - daysBeforeMonth year month + 1, hyear, hlast, hfirst, hmonths, by omega, by omega⟩, ?_⟩
  unfold dayNumber
  dsimp only
  omega

/-- **The day of a number is the one that has it.** -/
theorem ofDayNumber?_eq_some_iff {number : ℕ} {date : Date} :
    ofDayNumber? number = some date ↔ date.dayNumber = number := by
  constructor
  · intro h
    obtain ⟨year, dayOfYear, hyear, hday, hnumber⟩ := exists_year number
    obtain ⟨month, hfirst, hmonths, hbegun, hend⟩ := exists_month_of_year hday
    rw [ofDayNumber?_of_parts hyear hday hnumber, monthOfDay_eq hfirst hmonths hbegun hend, make?_eq_some_iff] at h
    obtain ⟨rfl, rfl, hday⟩ := h
    unfold dayNumber
    omega
  · rintro rfl
    exact date.ofDayNumber?_dayNumber

/-! ## Months through the years -/

/-- The number of a month, counted from the January of a year zero. -/
def monthIndex (date : Date) : ℕ :=
  12 * date.year + (date.month - 1)

theorem monthIndex_div (date : Date) : date.monthIndex / 12 = date.year ∧ date.monthIndex % 12 + 1 = date.month := by
  have := date.isDay
  unfold monthIndex
  omega

end Date

/-- The number of the first day of a month, which is given by its own number. -/
def monthStart (index : ℕ) : ℕ :=
  daysBeforeYear (index / 12) + daysBeforeMonth (index / 12) (index % 12 + 1)

/-- Months follow one another, also from one year to the next. -/
theorem monthStart_succ {index : ℕ} (h : 12 ≤ index) :
    monthStart (index + 1) = monthStart index + daysInMonth (index / 12) (index % 12 + 1) := by
  unfold monthStart
  by_cases hdecember : index % 12 = 11
  · have hyear : (index + 1) / 12 = index / 12 + 1 := by omega
    have hmonth : (index + 1) % 12 = 0 := by omega
    rw [hyear, hmonth, hdecember, daysBeforeYear_succ (by omega), ← daysBeforeMonth_thirteen]
    rw [daysBeforeMonth_succ _ (by decide : 1 ≤ 12), show daysBeforeMonth (index / 12 + 1) (0 + 1) = 0 from rfl]
    exact (Nat.add_assoc _ _ _).symm
  · have hyear : (index + 1) / 12 = index / 12 := by omega
    have hmonth : (index + 1) % 12 = index % 12 + 1 := by omega
    rw [hyear, hmonth, daysBeforeMonth_succ _ (by omega)]
    omega

theorem monthStart_le {a b : ℕ} (ha : 12 ≤ a) (h : a ≤ b) : monthStart a ≤ monthStart b := by
  induction b, h using Nat.le_induction with
  | base => exact Nat.le_refl _
  | succ b hb ih =>
    rw [monthStart_succ (Nat.le_trans ha hb)]
    omega

namespace Date

theorem dayNumber_eq (date : Date) : date.dayNumber = monthStart date.monthIndex + (date.day - 1) := by
  obtain ⟨hyear, hmonth⟩ := date.monthIndex_div
  unfold monthStart
  rw [hyear, hmonth]
  rfl

/-- **Days are in the order of their months.** -/
theorem dayNumber_lt_of_monthIndex {a b : Date} (h : a.monthIndex < b.monthIndex) : a.dayNumber < b.dayNumber := by
  have hday := a.isDay
  obtain ⟨hyear, hmonth⟩ := a.monthIndex_div
  have hfirst : 12 ≤ a.monthIndex := by omega
  have hstart := monthStart_le (by omega : 12 ≤ a.monthIndex + 1) h
  rw [monthStart_succ hfirst, hyear, hmonth] at hstart
  rw [dayNumber_eq, dayNumber_eq]
  omega

end Date

end Template.Calendar
