import Template.Calendar.Date
import Template.Number.Basic

/-!
# `Template.Calendar.Moment` — moments, durations and Unix time

A moment is a day and a time of that day in microseconds, in UTC. Durations and Unix times are numbers of
templates: integers count exactly, and a double is taken apart into its whole part, which counts exactly as
well, and its fraction, which is turned into microseconds in double precision and then rounded to a whole
microsecond, ties to even.

* `Moment` — a day and the microseconds since its start;
* `Moment.unixMicros`, `Moment.ofUnixMicros?` — microseconds since 1970, and back;
* `Moment.add?`, `Moment.addMonths?` — later moments;
* `Moment.ofUnix` — the moment of a Unix time in seconds or milliseconds, or why there is none;
* `Moment.unixSeconds`, `Moment.unixMillis` — Unix time as it is printed;
* `durationMicros?` — the length of so many units.
-/

namespace Template

open Calendar Number

/-- The microseconds of a day. -/
def Calendar.microsPerDay : Nat := 86400000000

/-- A moment in UTC. -/
structure Moment where
  /-- The day. -/
  date : Date
  /-- The microseconds since the start of the day. -/
  micros : Nat
  micros_lt : micros < microsPerDay
deriving DecidableEq

/-- The number of 1970-01-01. -/
def Calendar.unixDay : Nat := 719162

namespace Moment

instance : Inhabited Moment := ⟨⟨default, 0, by decide⟩⟩

/-- The moment of a date and a time, if both exist. -/
def make? (date : Date) (hour minute second micro : Nat) : Option Moment :=
  if hour < 24 ∧ minute < 60 ∧ second < 60 ∧ micro < 1000000 then
    let micros := ((hour * 60 + minute) * 60 + second) * 1000000 + micro
    if h : micros < microsPerDay then some ⟨date, micros, h⟩ else none
  else
    none

/-- The hour, from 0 to 23. -/
def hour (m : Moment) : Nat := m.micros / 3600000000

/-- The minute of the hour. -/
def minute (m : Moment) : Nat := m.micros / 60000000 % 60

/-- The second of the minute. -/
def second (m : Moment) : Nat := m.micros / 1000000 % 60

/-- The microsecond of the second. -/
def microsecond (m : Moment) : Nat := m.micros % 1000000

/-- The microseconds since the start of 1970, negative before it. -/
def unixMicros (m : Moment) : Int :=
  ((m.date.dayNumber : Int) - unixDay) * microsPerDay + m.micros

/-- The moment so many microseconds after the start of 1970, if it lies in the years 1 to 9999. -/
def ofUnixMicros? (micros : Int) : Option Moment :=
  let day := micros / microsPerDay + unixDay
  if day < 0 then none
  else (Date.ofDayNumber? day.toNat).map fun date =>
    ⟨date, (micros % microsPerDay).toNat, by
      have h : (0 : Int) < microsPerDay := by decide
      have := Int.emod_lt_of_pos micros h
      have := Int.emod_nonneg micros (Int.ne_of_gt h)
      omega⟩

/-- The moment so many microseconds later, if it lies in the years 1 to 9999. -/
def add? (m : Moment) (micros : Int) : Option Moment :=
  ofUnixMicros? (m.unixMicros + micros)

/-- The moment so many calendar months later, at the same time of the day. -/
def addMonths? (m : Moment) (months : Int) : Option Moment :=
  (m.date.addMonths? months).map fun date => { m with date }

end Moment

/-! ## Durations -/

/-- A finite double times a whole number of microseconds, in whole microseconds. -/
def Calendar.microsOfReal (unit : Nat) (x : Magnitude) : Nat :=
  let fraction := ((Magnitude.ofRatio? (x.fraction * unit) unitsPerOne).getD .zero).units
  roundHalfEven (x.floor * unit * unitsPerOne + fraction) unitsPerOne

/-- The length of a number of units of so many microseconds, if the number is finite. -/
def Calendar.durationMicros? (unit : Nat) : Number → Option Int
  | .integer n => some (n * unit)
  | .real (.finite true x) => some (-(microsOfReal unit x : Int))
  | .real (.finite false x) => some (microsOfReal unit x)
  | .real _ => none

/-! ## Unix time -/

/-- Why a number is not the Unix time of a moment. -/
inductive Calendar.UnixFault where
  /-- Its year is not one of the years 1 to 9999. -/
  | noYear
  /-- Its year does not even fit into 32 bits, or it is infinite. -/
  | noTime
deriving DecidableEq

namespace Moment

/-- The moment of an exact number of microseconds since 1970. Years of 32 bits span the seconds from
-67768040609740800 to 67768036191676799. -/
def ofMicros (micros : Int) : Except UnixFault Moment :=
  let seconds := micros / 1000000
  if seconds < -67768040609740800 ∨ 67768036191676799 < seconds then .error .noTime
  else match ofUnixMicros? micros with
    | some m => .ok m
    | none => .error .noYear

/-- The moment of a Unix time in seconds that is a double. -/
def ofSeconds : Binary64 → Except UnixFault Moment
  | .nan => .error .noYear
  | .infinite _ => .error .noTime
  | .finite true x => ofMicros (-(microsOfReal 1000000 x : Int))
  | .finite false x => ofMicros (microsOfReal 1000000 x)

/-- Below this absolute value a Unix time counts seconds, and from it on milliseconds. -/
def secondsLimit : Nat := 10000000000

/-- The moment of a Unix time, which counts seconds or, from `secondsLimit` on, milliseconds. Seconds that
are an integer are exact; milliseconds are turned into seconds in double precision. -/
def ofUnix : Number → Except UnixFault Moment
  | .integer n =>
    if n.natAbs < secondsLimit then ofMicros (n * 1000000)
    else match Binary64.ofRatio? n 1000 with
      | some seconds => ofSeconds seconds
      | none => .error .noTime
  | .real x =>
    match x with
    | .finite _ m =>
      if m.isBelow secondsLimit then ofSeconds x
      else match x.divide? 1000 with
        | some seconds => ofSeconds seconds
        | none => .error .noTime
    | _ => ofSeconds x

/-- Unix time in seconds, in double precision. -/
def timestamp (m : Moment) : Binary64 :=
  (Binary64.ofRatio? m.unixMicros 1000000).getD .nan

/-- Whole seconds of Unix time, rounded down from the double. -/
def unixSeconds (m : Moment) : Int :=
  m.timestamp.floor?.getD 0

/-- Whole milliseconds of Unix time, rounded down from a thousand times the double. -/
def unixMillis (m : Moment) : Int :=
  ((m.timestamp.scale? 1000).bind (·.floor?)).getD 0

end Moment

end Template
