import Template.Proofs.Days

/-!
# `Template.Proofs.Weeks` — ISO weeks

A week belongs to one year, and the years of weeks meet without a gap: the first week of a year starts on a Monday at most
three days away from the start of January. A day near that start may therefore lie in a week of the year before or after its
own. The first day with a number is a Monday, and the last one is in the middle of a week that belongs to its year, so that
the years of weeks are those of days.

## Contents
- `weekOneStart_bounds` — where the first week starts.
- `isoWeek_spec` — the year and the week of a day.
- `ofIsoWeek?_isoWeek` — the day of its year, week and weekday.
-/

namespace Template.Calendar.Date

/-- The first week starts on a Monday, at most three days away from the start of January. -/
theorem weekOneStart_bounds (year : ℕ) :
    7 ∣ weekOneStart year ∧ weekOneStart year ≤ daysBeforeYear year + 3 ∧
      daysBeforeYear year ≤ weekOneStart year + 3 := by
  unfold weekOneStart
  dsimp only
  split <;> omega

/-- A day is behind the start of its year, and in front of the start of the next one. -/
theorem dayNumber_bounds (date : Date) :
    daysBeforeYear date.year ≤ date.dayNumber ∧ date.dayNumber < daysBeforeYear (date.year + 1) := by
  rw [daysBeforeYear_succ date.isDay.1, dayNumber]
  have := date.year_bounds
  omega

/-- **The week of a day** is the one that it lies in, counted from the first week of a year that has begun and not ended. -/
theorem isoWeek_spec (date : Date) :
    (1 ≤ date.isoWeek.1 ∧ date.isoWeek.1 ≤ 9999) ∧
      (weekOneStart date.isoWeek.1 ≤ date.dayNumber ∧ date.dayNumber < weekOneStart (date.isoWeek.1 + 1)) ∧
      date.isoWeek.2 = (date.dayNumber - weekOneStart date.isoWeek.1) / 7 + 1 := by
  obtain ⟨hfirst, hlast, -⟩ := date.isDay
  obtain ⟨hlow, hhigh⟩ := date.dayNumber_bounds
  obtain ⟨-, -, hnext⟩ := weekOneStart_bounds (date.year + 1)
  unfold isoWeek
  dsimp only
  by_cases hbefore : date.dayNumber < weekOneStart date.year
  · -- the week belongs to the year before, and the first day of all is in no such week
    obtain ⟨year, hyear⟩ : ∃ year, date.year = year + 1 := ⟨date.year - 1, by omega⟩
    have hpos : 1 ≤ year := by
      rw [hyear] at hbefore
      rcases Nat.eq_zero_or_pos year with rfl | hpos
      · exact absurd hbefore (Nat.not_lt_zero _)
      · exact hpos
    obtain ⟨-, hstart, -⟩ := weekOneStart_bounds year
    have hlength := (daysInYear_bounds year).1
    have hsucc := daysBeforeYear_succ hpos
    rw [if_pos hbefore, hyear, Nat.add_sub_cancel]
    rw [hyear] at hbefore hlow hlast
    exact ⟨⟨hpos, by omega⟩, ⟨by omega, hbefore⟩, rfl⟩
  · rw [if_neg hbefore]
    by_cases hafter : weekOneStart (date.year + 1) ≤ date.dayNumber
    · -- the week belongs to the year after, and the last day of all is in no such week
      have hlt : date.year ≠ 9999 := by
        intro hyear
        rw [hyear, show weekOneStart (9999 + 1) = 3652061 by decide] at hafter
        exact absurd date.dayNumber_lt (by omega)
      obtain ⟨-, -, hnext'⟩ := weekOneStart_bounds (date.year + 1 + 1)
      have hlength := (daysInYear_bounds (date.year + 1)).1
      have hsucc := daysBeforeYear_succ (by omega : 1 ≤ date.year + 1)
      rw [if_pos hafter]
      exact ⟨by omega, ⟨hafter, by omega⟩, rfl⟩
    · rw [if_neg hafter]
      exact ⟨⟨hfirst, hlast⟩, by omega, rfl⟩

/-- A year has at most 53 weeks. -/
theorem isoWeek_le (date : Date) : date.isoWeek.2 ≤ 53 := by
  obtain ⟨⟨hpos, -⟩, ⟨hlow, hhigh⟩, hweek⟩ := date.isoWeek_spec
  obtain ⟨hmonday, -, hstart⟩ := weekOneStart_bounds date.isoWeek.1
  obtain ⟨hmonday', hnext, -⟩ := weekOneStart_bounds (date.isoWeek.1 + 1)
  rw [daysBeforeYear_succ hpos] at hnext
  have hlength := (daysInYear_bounds date.isoWeek.1).2
  omega

/-- **Year, week and weekday lead back to the day.** -/
theorem ofIsoWeek?_isoWeek (date : Date) :
    ofIsoWeek? date.isoWeek.1 date.isoWeek.2 (date.weekday + 1) = some date := by
  obtain ⟨⟨hpos, -⟩, ⟨hlow, hhigh⟩, hweek⟩ := date.isoWeek_spec
  obtain ⟨hmonday, -⟩ := weekOneStart_bounds date.isoWeek.1
  obtain ⟨hmonday', -⟩ := weekOneStart_bounds (date.isoWeek.1 + 1)
  have hnumber : weekOneStart date.isoWeek.1 + 7 * (date.isoWeek.2 - 1) + (date.weekday + 1 - 1) = date.dayNumber := by
    rw [hweek, weekday]
    omega
  have hends : weekOneStart date.isoWeek.1 + 7 * date.isoWeek.2 ≤ weekOneStart (date.isoWeek.1 + 1) := by
    rw [hweek]
    omega
  have hweekday : date.weekday < 7 := Nat.mod_lt _ (by decide)
  rw [ofIsoWeek?, if_pos ⟨hpos, by omega, by omega, by omega, hends⟩, hnumber, date.ofDayNumber?_dayNumber]

end Template.Calendar.Date
