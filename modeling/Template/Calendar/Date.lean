/-!
# `Template.Calendar.Date` — days of the years 1 to 9999

Dates follow the Gregorian calendar, extended backwards to the first year. The days are numbered from
0001-01-01, which is day 0 and a Monday, so that the weekday of a day is its number modulo seven. Weeks are
those of ISO 8601: they start on Monday, and the first week of a year is the one with its first Thursday.

* `Date` — a day that exists;
* `Date.dayNumber`, `Date.ofDayNumber?` — its number, and the day of a number;
* `Date.addMonths?` — calendar months later, on the same day or the last one of a shorter month;
* `weekOneStart`, `Date.isoWeek`, `Date.ofIsoWeek?` — ISO weeks.
-/

namespace Template.Calendar

/-- Whether a year has a twenty-ninth of February. -/
def isLeap (year : Nat) : Bool :=
  year % 4 == 0 && (year % 100 != 0 || year % 400 == 0)

/-- The length of a month. -/
def daysInMonth (year month : Nat) : Nat :=
  match month with
  | 2 => if isLeap year then 29 else 28
  | 4 | 6 | 9 | 11 => 30
  | _ => 31

/-- The days of the years before a year. -/
def daysBeforeYear (year : Nat) : Nat :=
  365 * (year - 1) + (year - 1) / 4 - (year - 1) / 100 + (year - 1) / 400

/-- The days of a year before one of its months. -/
def daysBeforeMonth (year : Nat) : (month : Nat) → Nat
  | 0 => 0
  | 1 => 0
  | month + 1 => daysBeforeMonth year month + daysInMonth year month

/-- The last month, up to the given one, that has begun after so many days of a year. -/
def monthOfDay (year dayOfYear : Nat) : (month : Nat) → Nat
  | 0 => 0
  | month + 1 =>
    if daysBeforeMonth year (month + 1) ≤ dayOfYear then month + 1
    else monthOfDay year dayOfYear month

/-- Whether year, month and day name a day of the years 1 to 9999. -/
abbrev IsDay (year month day : Nat) : Prop :=
  1 ≤ year ∧ year ≤ 9999 ∧ 1 ≤ month ∧ month ≤ 12 ∧ 1 ≤ day ∧ day ≤ daysInMonth year month

/-- A day of the years 1 to 9999. -/
structure Date where
  /-- The year. -/
  year : Nat
  /-- The month, counted from one. -/
  month : Nat
  /-- The day of the month, counted from one. -/
  day : Nat
  isDay : IsDay year month day
deriving DecidableEq

namespace Date

instance : Inhabited Date := ⟨⟨1, 1, 1, by decide⟩⟩

/-- The day of these numbers, if there is one. -/
def make? (year month day : Nat) : Option Date :=
  if h : IsDay year month day then some ⟨year, month, day, h⟩ else none

/-- The number of a day, counted from 0001-01-01. -/
def dayNumber (date : Date) : Nat :=
  daysBeforeYear date.year + daysBeforeMonth date.year date.month + (date.day - 1)

/-- The number of a day in its year, counted from one. -/
def dayOfYear (date : Date) : Nat :=
  daysBeforeMonth date.year date.month + date.day

/-- The day of a number, if it lies in the years 1 to 9999.

The days repeat after 400 years, which hold 146097 of them; of these the first three centuries have 36524
days each, every four years of a century but its last have 1461, and of these the first three have 365. -/
def ofDayNumber? (number : Nat) : Option Date :=
  let rest := number % 146097
  let centuries := min (rest / 36524) 3
  let rest := rest - centuries * 36524
  let years4 := rest / 1461
  let rest := rest % 1461
  let years := min (rest / 365) 3
  let dayOfYear := rest - years * 365
  let year := number / 146097 * 400 + centuries * 100 + years4 * 4 + years + 1
  let month := monthOfDay year dayOfYear 12
  make? year month (dayOfYear - daysBeforeMonth year month + 1)

/-- The weekday, from Monday, which is 0, to Sunday, which is 6. -/
def weekday (date : Date) : Nat :=
  date.dayNumber % 7

/-- The day a number of calendar months later, or earlier: of the same number in its month, or the last one
of a shorter month. -/
def addMonths? (date : Date) (months : Int) : Option Date :=
  let index : Int := date.year * 12 + (date.month - 1 : Nat) + months
  let year := index / 12
  if year < 1 then none
  else
    let year := year.toNat
    let month := (index % 12).toNat + 1
    make? year month (min date.day (daysInMonth year month))

/-- The number of the Monday that starts the first ISO week of a year: the one nearest to the start of
January. -/
def weekOneStart (year : Nat) : Nat :=
  let first := daysBeforeYear year
  if first % 7 ≤ 3 then first - first % 7 else first + 7 - first % 7

/-- The year that the ISO week of a day belongs to, and the number of the week in it. -/
def isoWeek (date : Date) : Nat × Nat :=
  let number := date.dayNumber
  let year :=
    if number < weekOneStart date.year then date.year - 1
    else if weekOneStart (date.year + 1) ≤ number then date.year + 1
    else date.year
  (year, (number - weekOneStart year) / 7 + 1)

/-- The day of an ISO week; weekdays run from 1 for Monday to 7. A year has 53 weeks if the next one starts
so much later, and 52 otherwise. -/
def ofIsoWeek? (year week weekday : Nat) : Option Date :=
  if 1 ≤ year ∧ 1 ≤ week ∧ 1 ≤ weekday ∧ weekday ≤ 7 ∧
      weekOneStart year + 7 * week ≤ weekOneStart (year + 1) then
    ofDayNumber? (weekOneStart year + 7 * (week - 1) + (weekday - 1))
  else
    none

end Date

end Template.Calendar
