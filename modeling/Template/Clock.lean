import Template.Calendar.Pattern
import Template.Number.Reader
import Template.Plugin

/-!
# `Template.Clock` — times relative to a base time

The module `time` has two actions:

* `calc` — a base time, shifted by an offset. With the name of a unit the result is the Unix time in seconds;
  with anything else the offset counts seconds, and the result is the shifted time in the form of that pattern;
* `format` — a Unix time in the form of a pattern.

The base time comes from the context, and if there is none, it is the current time, which the caller supplies.

* `TimeUnit`, `TimeUnit.shift` — units, and moments shifted by them;
* `moment` — a base time as a moment;
* `baseTime` — the base time of a context;
* `plugin` — the actions together.
-/

namespace Template

open Calendar

/-- A unit of time. -/
inductive TimeUnit where
  | milliseconds
  | seconds
  | minutes
  | hours
  | days
  | weeks
  | months
  | years
deriving DecidableEq

namespace TimeUnit

/-- Every unit. -/
def all : List TimeUnit :=
  [.milliseconds, .seconds, .minutes, .hours, .days, .weeks, .months, .years]

/-- The word for a unit. -/
def name : TimeUnit → String
  | .milliseconds => "milliseconds"
  | .seconds => "seconds"
  | .minutes => "minutes"
  | .hours => "hours"
  | .days => "days"
  | .weeks => "weeks"
  | .months => "months"
  | .years => "years"

/-- The unit of a word, in any case. -/
def ofWord? (word : String) : Option TimeUnit :=
  all.find? fun unit => unit.name == String.ofList (Text.fold word.toList)

/-- How long a unit is. -/
inductive Length where
  /-- So many microseconds. -/
  | micros (count : Nat)
  /-- So many calendar months. -/
  | months (count : Nat)

/-- The length of a unit. -/
def length : TimeUnit → Length
  | .milliseconds => .micros 1000
  | .seconds => .micros 1000000
  | .minutes => .micros 60000000
  | .hours => .micros 3600000000
  | .days => .micros 86400000000
  | .weeks => .micros 604800000000
  | .months => .months 1
  | .years => .months 12

end TimeUnit

namespace Clock

/-- The module. -/
def name : String := "time"

/-- A value that may be out of range. -/
def inRange {α : Type} : Option α → Except Cause α
  | some a => .ok a
  | none => .error .outOfRange

/-! ## Shifted moments -/

/-- A number as a whole number. -/
def whole? : Number → Option Int
  | .integer n => some n
  | .real x => x.toInt?

/-- A moment shifted by a number of units. Months and years are only shifted by whole numbers. -/
def shift (unit : TimeUnit) (base : Moment) (offset : Number) : Except Cause Moment :=
  match unit.length with
  | .micros count => inRange ((durationMicros? count offset).bind base.add?)
  | .months count =>
    match whole? offset with
    | some n => inRange (base.addMonths? (n * count))
    | none => .error (.rejected name "calc" s!"offset in {unit.name} must be a whole number")

/-! ## The base time -/

/-- A text as a moment: an ISO 8601 text, between blanks. -/
def isoMoment (s : String) : Except Cause Moment :=
  match IsoText.Stamp.read? (Text.trim s.toList) with
  | some stamp => inRange stamp.moment?
  | none => .error (.rejected name "calc" s!"cannot parse time value '{s}'")

/-- A base time as a moment. A text is a Unix time, if it is a number and the year is within range, and
otherwise an ISO 8601 text. -/
def moment : Anchor → Except Cause Moment
  | .moment shown none => .ok shown
  | .moment shown (some offset) => inRange (shown.add? (-(offset * 60000000)))
  | .number n => (Moment.ofUnix n).mapError fun _ => .outOfRange
  | .text s =>
    match Number.read s.toList false with
    | .error _ => isoMoment s
    | .ok n =>
      match Moment.ofUnix n with
      | .ok m => .ok m
      | .error .noYear => isoMoment s
      | .error .noTime => .error .outOfRange

/-- The base time of a context, which is `now` if the context has none. -/
def baseTime (now : Moment) (context : Context) : Except Cause Moment :=
  match context.anchor? with
  | none => .ok now
  | some anchor => moment anchor

/-! ## The actions -/

/-- A moment in the form of a pattern. -/
def formatted (m : Moment) (pattern : String) : Json :=
  .string (String.ofList (Pattern.format m pattern.toList))

/-- The base time shifted by an offset: as Unix time if `form` is the name of a unit, and otherwise, with an
offset in seconds, in the form of the pattern `form`. -/
def shifted (now : Moment) (context : Context) (offset form : String) : Except Cause Json :=
  match Number.read offset.toList false with
  | .error _ => .error (.rejected name "calc" s!"invalid offset '{offset}'")
  | .ok offset => do
    let base ← baseTime now context
    match TimeUnit.ofWord? form with
    | some unit => return .int (← shift unit base offset).unixSeconds
    | none => return formatted (← shift .seconds base offset) form

/-- A Unix time in the form of a pattern. -/
def format (time pattern : String) : Except Cause Json :=
  match Number.read time.toList false with
  | .error _ => .error (.rejected name "format" s!"invalid timestamp '{time}'")
  | .ok time =>
    match Moment.ofUnix time with
    | .ok m => .ok (formatted m pattern)
    | .error _ => .error .outOfRange

/-- The value for an action and its arguments. -/
def answer (now : Moment) (context : Context) (asked : String) (arguments : List String) :
    Except Cause Json :=
  match asked, arguments with
  | "calc", offset :: form :: _ => shifted now context offset form
  | "calc", _ => .error (.rejected name "calc" "requires 2 arguments (offset, unit/format)")
  | "format", time :: pattern :: _ => format time pattern
  | "format", _ => .error (.rejected name "format" "requires 2 arguments (timestamp, format)")
  | _, _ => .error (.rejected name asked s!"unknown action '{asked}'. Available: calc, format")

/-- The plugin for the module `time`. It has no state. -/
def plugin {σ : Type} (now : Moment) : Plugin σ :=
  .pure name fun placeholder context => answer now context placeholder.action placeholder.args

end Clock

end Template
