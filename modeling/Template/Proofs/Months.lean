import Mathlib.Order.Lattice
import Template.Calendar.Moment
import Template.Proofs.Days

/-!
# `Template.Proofs.Months` — moments by their microseconds, and months later

A moment is known by its microseconds since the start of 1970 (`Moment.ofUnixMicros?_eq_some_iff`), and so are the
moments before and after it. Calendar months are counted differently: a moment some months later lies in the month of
that number, on the same day as far as that month is long enough (`Date.addMonths?_eq_some_iff`). The number of the
month decides which of two such moments is earlier, whatever days they fall on; and where no month is too short, months
may be added in parts.

## Contents
- `Moment.exists_unixMicros_iff`, `Moment.ofUnixMicros?_eq_some_iff`, `Moment.add?_eq_some_iff` — microseconds.
- `Date.addMonths?_eq_some_iff`, `Date.exists_addMonths?_iff` — days of later months.
- `Moment.adds_months` — calendar months.
-/

namespace Template

open Calendar

namespace Moment

/-! ## Microseconds -/

theorem unixMicros_eq (m : Moment) :
    m.unixMicros = ((m.date.dayNumber : ℤ) - 719162) * 86400000000 + m.micros := rfl

theorem micros_lt' (m : Moment) : m.micros < 86400000000 := m.micros_lt

/-- Moments of one day and one time of day are one. -/
theorem ext_iff' {a b : Moment} : a = b ↔ a.date = b.date ∧ a.micros = b.micros := by
  constructor
  · rintro rfl
    exact ⟨rfl, rfl⟩
  · obtain ⟨date, micros, hlt⟩ := a
    rintro ⟨rfl, rfl⟩
    rfl

/-- The microseconds tell the day and the time of day. -/
theorem unixMicros_iff {m : Moment} {u : ℤ} :
    m.unixMicros = u ↔ (m.date.dayNumber : ℤ) = u / 86400000000 + 719162 ∧ (m.micros : ℤ) = u % 86400000000 := by
  have := m.micros_lt'
  rw [unixMicros_eq]
  omega

/-- The time of day is less than a day. -/
theorem timeOfDay_lt (u : ℤ) : (u % 86400000000).toNat < microsPerDay := by
  unfold microsPerDay
  omega

theorem ofUnixMicros?_eq (u : ℤ) :
    ofUnixMicros? u =
      if u / 86400000000 + 719162 < 0 then none
      else (Date.ofDayNumber? (u / 86400000000 + 719162).toNat).map fun date =>
        ⟨date, (u % 86400000000).toNat, timeOfDay_lt u⟩ := rfl

/-- **The moment of a number of microseconds is the one that has it.** -/
theorem ofUnixMicros?_eq_some_iff {u : ℤ} {m : Moment} : ofUnixMicros? u = some m ↔ m.unixMicros = u := by
  rw [unixMicros_iff, ofUnixMicros?_eq]
  split
  · exact ⟨fun h => (nomatch h), fun h => by omega⟩
  · rename_i hday
    rw [Option.map_eq_some_iff]
    constructor
    · rintro ⟨date, hdate, rfl⟩
      rw [Date.ofDayNumber?_eq_some_iff] at hdate
      dsimp only
      omega
    · rintro ⟨hdate, hmicros⟩
      refine ⟨m.date, Date.ofDayNumber?_eq_some_iff.mpr (by omega), ext_iff'.mpr ⟨rfl, ?_⟩⟩
      dsimp only
      omega

theorem unixMicros_injective {a b : Moment} (h : a.unixMicros = b.unixMicros) : a = b := by
  have ha := ofUnixMicros?_eq_some_iff.mpr h
  rw [ofUnixMicros?_eq_some_iff.mpr rfl] at ha
  exact (Option.some.inj ha).symm

/-- The years 1 to 9999 in microseconds. -/
theorem exists_unixMicros_iff {u : ℤ} :
    (∃ m : Moment, m.unixMicros = u) ↔ -62135596800000000 ≤ u ∧ u < 253402300800000000 := by
  constructor
  · rintro ⟨m, rfl⟩
    have := m.date.dayNumber_lt
    have := m.micros_lt'
    rw [unixMicros_eq]
    omega
  · rintro ⟨hlow, hhigh⟩
    have hday : (u / 86400000000 + 719162).toNat < 3652059 := by omega
    obtain ⟨date, hdate⟩ := Date.exists_dayNumber hday
    refine ⟨⟨date, (u % 86400000000).toNat, timeOfDay_lt u⟩, unixMicros_iff.mpr ⟨?_, ?_⟩⟩
    · dsimp only
      omega
    · dsimp only
      omega

/-- **A later moment is the one so many microseconds later.** -/
theorem add?_eq_some_iff {m r : Moment} {micros : ℤ} :
    m.add? micros = some r ↔ r.unixMicros = m.unixMicros + micros :=
  ofUnixMicros?_eq_some_iff

@[simp]
theorem add?_zero (m : Moment) : m.add? 0 = some m :=
  add?_eq_some_iff.mpr (Int.add_zero _).symm

/-- A moment on an earlier day is earlier. -/
theorem unixMicros_lt_of_dayNumber {a b : Moment} (h : a.date.dayNumber < b.date.dayNumber) :
    a.unixMicros < b.unixMicros := by
  have := a.micros_lt'
  rw [unixMicros_eq, unixMicros_eq]
  omega

end Moment

/-! ## Days of later months -/

namespace Calendar.Date

/-- **A day some months later** is in the month of that number, and as late in it as the month is long. -/
theorem addMonths?_eq_some_iff {date later : Date} {months : ℤ} :
    date.addMonths? months = some later ↔
      (later.monthIndex : ℤ) = date.monthIndex + months ∧
        later.day = min date.day (daysInMonth later.year later.month) := by
  have hindex : (date.year : ℤ) * 12 + (date.month - 1 : ℕ) + months = date.monthIndex + months := by
    unfold monthIndex
    omega
  have hlater := later.isDay
  have hparts := later.monthIndex_div
  unfold addMonths?
  rw [hindex]
  generalize (date.monthIndex : ℤ) + months = index
  dsimp only
  split
  · rename_i hbefore
    exact ⟨fun h => (nomatch h), fun h => by omega⟩
  · rw [make?_eq_some_iff]
    constructor
    · rintro ⟨hyear, hmonth, hday⟩
      refine ⟨by unfold monthIndex; omega, ?_⟩
      rw [hday, hyear, hmonth]
    · rintro ⟨hmonth, hday⟩
      have hyear : later.year = (index / 12).toNat := by omega
      have hmonth : later.month = (index % 12).toNat + 1 := by omega
      refine ⟨hyear, hmonth, ?_⟩
      rw [hday, hyear, hmonth]

/-- There is such a day if and only if the month lies in the years 1 to 9999. -/
theorem exists_addMonths?_iff {date : Date} {months : ℤ} :
    (∃ later, date.addMonths? months = some later) ↔
      1 ≤ (date.monthIndex + months) / 12 ∧ (date.monthIndex + months) / 12 ≤ 9999 := by
  constructor
  · rintro ⟨later, h⟩
    have hlater := later.isDay
    have hparts := later.monthIndex_div
    have := (addMonths?_eq_some_iff.mp h).1
    omega
  · rintro ⟨hfirst, hlast⟩
    obtain ⟨index, hindex⟩ := Int.eq_ofNat_of_zero_le (by omega : 0 ≤ (date.monthIndex : ℤ) + months)
    rw [hindex] at hfirst hlast
    have hday := date.isDay
    have hlong := (daysInMonth_bounds (index / 12) (index % 12 + 1)).1
    let later : Date := ⟨index / 12, index % 12 + 1, min date.day (daysInMonth (index / 12) (index % 12 + 1)),
      by omega, by omega, by omega, by omega, by omega, Nat.min_le_right _ _⟩
    refine ⟨later, addMonths?_eq_some_iff.mpr ⟨?_, rfl⟩⟩
    rw [hindex]
    refine congrArg Int.ofNat ?_
    show 12 * (index / 12) + (index % 12 + 1 - 1) = index
    omega

/-- Days in months that are long enough keep their number, and so they may be moved in parts. -/
theorem addMonths?_addMonths? {date later : Date} {a : ℤ} (hday : date.day ≤ 28)
    (h : date.addMonths? a = some later) (b : ℤ) : later.addMonths? b = date.addMonths? (a + b) := by
  obtain ⟨hindex, hlater⟩ := addMonths?_eq_some_iff.mp h
  have hlong := (daysInMonth_bounds later.year later.month).1
  have hkept : later.day = date.day := by omega
  ext last
  rw [addMonths?_eq_some_iff, addMonths?_eq_some_iff, hkept, hindex, Int.add_assoc]

theorem addMonths?_zero (date : Date) : date.addMonths? 0 = some date :=
  addMonths?_eq_some_iff.mpr ⟨(Int.add_zero _).symm, (Nat.min_eq_left date.isDay.2.2.2.2.2).symm⟩

end Calendar.Date

/-! ## Months later -/

namespace Moment

theorem addMonths?_eq_some_iff {m r : Moment} {months : ℤ} :
    m.addMonths? months = some r ↔ m.date.addMonths? months = some r.date ∧ r.micros = m.micros := by
  unfold addMonths?
  rw [Option.map_eq_some_iff]
  constructor
  · rintro ⟨date, hdate, rfl⟩
    exact ⟨hdate, rfl⟩
  · rintro ⟨hdate, hmicros⟩
    exact ⟨r.date, hdate, ext_iff'.mpr ⟨rfl, hmicros.symm⟩⟩

theorem exists_addMonths?_iff {m : Moment} {months : ℤ} :
    (∃ r, m.addMonths? months = some r) ↔ ∃ date, m.date.addMonths? months = some date := by
  unfold addMonths?
  simp only [Option.map_eq_some_iff]
  exact ⟨fun ⟨_, date, h, _⟩ => ⟨date, h⟩, fun ⟨date, h⟩ => ⟨_, date, h, rfl⟩⟩

/-- **A moment a number of months later.** It exists if the month lies in the years 1 to 9999, and then it is in the
month of that number, on the same day or on the last one of a shorter month, at the same time. A greater number of
months gives a later moment. As long as the day is in every month, months may be added in parts, and taken back. -/
theorem adds_months (m : Moment) (k : ℤ) :
    ((∃ r, m.addMonths? k = some r) ↔
        1 ≤ (m.date.monthIndex + k) / 12 ∧ (m.date.monthIndex + k) / 12 ≤ 9999) ∧
      (∀ r, m.addMonths? k = some r →
        (r.date.monthIndex : ℤ) = m.date.monthIndex + k ∧
          r.date.day = min m.date.day (daysInMonth r.date.year r.date.month) ∧ r.micros = m.micros) ∧
      (∀ j r r', k < j → m.addMonths? k = some r → m.addMonths? j = some r' → r.unixMicros < r'.unixMicros) ∧
      (m.date.day ≤ 28 → ∀ r, m.addMonths? k = some r →
        (∀ j, r.addMonths? j = m.addMonths? (k + j)) ∧ r.addMonths? (-k) = some m) := by
  refine ⟨exists_addMonths?_iff.trans Date.exists_addMonths?_iff, ?_, ?_, ?_⟩
  · intro r h
    obtain ⟨hdate, hmicros⟩ := addMonths?_eq_some_iff.mp h
    obtain ⟨hindex, hday⟩ := Date.addMonths?_eq_some_iff.mp hdate
    exact ⟨hindex, hday, hmicros⟩
  · intro j r r' hlt h h'
    have hindex := (Date.addMonths?_eq_some_iff.mp (addMonths?_eq_some_iff.mp h).1).1
    have hindex' := (Date.addMonths?_eq_some_iff.mp (addMonths?_eq_some_iff.mp h').1).1
    exact unixMicros_lt_of_dayNumber (Date.dayNumber_lt_of_monthIndex (by omega))
  · intro hday r h
    obtain ⟨hdate, hmicros⟩ := addMonths?_eq_some_iff.mp h
    have hparts : ∀ j, r.addMonths? j = m.addMonths? (k + j) := by
      intro j
      ext last
      rw [addMonths?_eq_some_iff, addMonths?_eq_some_iff, hmicros,
        Date.addMonths?_addMonths? hday hdate]
    refine ⟨hparts, ?_⟩
    rw [hparts, Int.add_right_neg, addMonths?_eq_some_iff]
    exact ⟨m.date.addMonths?_zero, rfl⟩

/-- The noon of a day. -/
def noon (date : Date) : Moment := ⟨date, 43200000000, by decide⟩

/-- A month before the start of a leap year and a month behind it, from the 31st and from the 28th. -/
theorem adds_months_leap :
    (noon ⟨2023, 12, 31, by decide⟩).addMonths? 2 = some (noon ⟨2024, 2, 29, by decide⟩) ∧
      (noon ⟨2023, 12, 31, by decide⟩).addMonths? 3 = some (noon ⟨2024, 3, 31, by decide⟩) ∧
      (noon ⟨2024, 2, 29, by decide⟩).unixMicros < (noon ⟨2024, 3, 31, by decide⟩).unixMicros ∧
      (noon ⟨2023, 12, 28, by decide⟩).addMonths? 2 = some (noon ⟨2024, 2, 28, by decide⟩) ∧
      (noon ⟨2024, 2, 28, by decide⟩).addMonths? (-2) = some (noon ⟨2023, 12, 28, by decide⟩) ∧
      ¬∃ r, (noon ⟨2023, 12, 31, by decide⟩).addMonths? (12 * 7976 + 1) = some r := by
  have hend : (noon ⟨2023, 12, 31, by decide⟩).addMonths? 2 = some (noon ⟨2024, 2, 29, by decide⟩) := by decide
  have hmarch : (noon ⟨2023, 12, 31, by decide⟩).addMonths? 3 = some (noon ⟨2024, 3, 31, by decide⟩) := by decide
  have hkept : (noon ⟨2023, 12, 28, by decide⟩).addMonths? 2 = some (noon ⟨2024, 2, 28, by decide⟩) := by decide
  refine ⟨hend, hmarch, (adds_months _ 2).2.2.1 3 _ _ (by decide) hend hmarch, hkept,
    ((adds_months _ 2).2.2.2 (by decide) _ hkept).2, ?_⟩
  rw [(adds_months _ _).1]
  decide

end Moment

end Template
