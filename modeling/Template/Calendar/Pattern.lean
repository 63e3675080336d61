import Template.Calendar.Moment
import Template.Text.Digit

/-!
# `Template.Calendar.Pattern` — moments in a chosen form

A pattern is a text in which runs of one letter stand for parts of a moment: `yyyy-MM-dd`. A run that stands
for nothing, and every other character, is copied. Text between single quotes is copied without the quotes;
a quote that is not closed copies the rest.

* `Piece`, `pieces` — a pattern cut into quoted texts and runs;
* `part?` — what a run stands for;
* `format` — a moment in the form of a pattern.
-/

namespace Template.Calendar.Pattern

/-- A piece of a pattern. -/
inductive Piece where
  /-- Copied text. -/
  | quoted (text : List Char)
  /-- A character, repeated. -/
  | run (char : Char) (count : Nat)
deriving DecidableEq

theorem length_dropWhile_le (p : Char → Bool) (text : List Char) :
    (text.dropWhile p).length ≤ text.length := by
  induction text with
  | nil => simp
  | cons c rest ih =>
    unfold List.dropWhile
    split
    · simp; omega
    · simp

/-- The pieces of a pattern, in order. -/
def pieces : List Char → List Piece
  | [] => []
  | c :: rest =>
    if c = '\x27' then
      .quoted (rest.takeWhile (· != '\x27')) :: pieces ((rest.dropWhile (· != '\x27')).drop 1)
    else
      .run c ((rest.takeWhile (· == c)).length + 1) :: pieces (rest.dropWhile (· == c))
termination_by pattern => pattern.length
decreasing_by
  · have := length_dropWhile_le (· != '\x27') rest
    simp; omega
  · have := length_dropWhile_le (· == c) rest
    simp; omega

/-! ## The parts of a moment -/

/-- The names of the months. -/
def monthNames : List String :=
  ["January", "February", "March", "April", "May", "June", "July", "August", "September", "October",
    "November", "December"]

/-- The names of the weekdays, from Monday on. -/
def weekdayNames : List String :=
  ["Monday", "Tuesday", "Wednesday", "Thursday", "Friday", "Saturday", "Sunday"]

/-- The name of the month. -/
def monthName (m : Moment) : List Char :=
  (monthNames.getD (m.date.month - 1) "").toList

/-- The name of the weekday. -/
def weekdayName (m : Moment) : List Char :=
  (weekdayNames.getD m.date.weekday "").toList

/-- The hour on a clock of twelve hours. -/
def hour12 (m : Moment) : Nat :=
  if m.hour % 12 = 0 then 12 else m.hour % 12

/-- The half of the day. -/
def halfDay (m : Moment) : List Char :=
  if m.hour < 12 then ['A', 'M'] else ['P', 'M']

/-- The quarter of the year. -/
def quarter (m : Moment) : Nat := (m.date.month - 1) / 3 + 1

/-- The milliseconds of the second. -/
def millisecond (m : Moment) : Nat := m.microsecond / 1000

/-- Hours and minutes with the given writing of the hour. -/
def clockText (hour : List Char) (m : Moment) : List Char :=
  hour ++ ':' :: Text.padded 2 m.minute

/-- Day, year and a name of the month. -/
def longDate (month : List Char) (m : Moment) : List Char :=
  month ++ ' ' :: Text.decimal m.date.day ++ ',' :: ' ' :: Text.decimal m.date.year

/-- What a run of a letter stands for, if it stands for something. A moment is in UTC, so everything about
its zone is fixed. -/
def part? (char : Char) (count : Nat) (m : Moment) : Option (List Char) :=
  match char, count with
  | 'y', 1 => some (Text.decimal m.date.year)
  | 'y', 2 => some (Text.padded 2 (m.date.year % 100))
  | 'y', 4 => some (Text.padded 4 m.date.year)
  | 'y', 6 => some (Text.padded 6 m.date.year)
  | 'M', 1 | 'L', 1 => some (Text.decimal m.date.month)
  | 'M', 2 | 'L', 2 => some (Text.padded 2 m.date.month)
  | 'M', 3 | 'L', 3 => some ((monthName m).take 3)
  | 'M', 4 | 'L', 4 => some (monthName m)
  | 'M', 5 | 'L', 5 => some ((monthName m).take 1)
  | 'd', 1 => some (Text.decimal m.date.day)
  | 'd', 2 => some (Text.padded 2 m.date.day)
  | 'o', 1 => some (Text.decimal m.date.dayOfYear)
  | 'o', 3 => some (Text.padded 3 m.date.dayOfYear)
  | 'E', 1 | 'c', 1 => some (Text.decimal (m.date.weekday + 1))
  | 'E', 3 | 'c', 3 => some ((weekdayName m).take 3)
  | 'E', 4 | 'c', 4 => some (weekdayName m)
  | 'E', 5 | 'c', 5 => some ((weekdayName m).take 1)
  | 'H', 1 => some (Text.decimal m.hour)
  | 'H', 2 => some (Text.padded 2 m.hour)
  | 'h', 1 => some (Text.decimal (hour12 m))
  | 'h', 2 => some (Text.padded 2 (hour12 m))
  | 'm', 1 => some (Text.decimal m.minute)
  | 'm', 2 => some (Text.padded 2 m.minute)
  | 's', 1 => some (Text.decimal m.second)
  | 's', 2 => some (Text.padded 2 m.second)
  | 'S', 1 => some (Text.decimal (millisecond m))
  | 'S', 3 => some (Text.padded 3 (millisecond m))
  | 'a', 1 => some (halfDay m)
  | 'q', 1 => some (Text.decimal (quarter m))
  | 'q', 2 => some (Text.padded 2 (quarter m))
  | 'W', 1 => some (Text.decimal m.date.isoWeek.2)
  | 'W', 2 => some (Text.padded 2 m.date.isoWeek.2)
  | 'k', 4 => some (Text.padded 4 m.date.isoWeek.1)
  | 'X', 1 => some (Text.integer m.unixSeconds)
  | 'x', 1 => some (Text.integer m.unixMillis)
  | 'Z', 1 => some ['+', '0']
  | 'Z', 2 => some ['+', '0', '0', ':', '0', '0']
  | 'Z', 3 => some ['+', '0', '0', '0', '0']
  | 'Z', 4 | 'z', 1 => some ['U', 'T', 'C']
  | 'D', 1 =>
    some (Text.decimal m.date.month ++ '/' :: Text.decimal m.date.day ++ '/' ::
      Text.decimal m.date.year)
  | 'D', 2 => some (longDate ((monthName m).take 3) m)
  | 'D', 3 => some (longDate (monthName m) m)
  | 't', 1 => some (clockText (Text.decimal (hour12 m)) m ++ ' ' :: halfDay m)
  | 't', 2 =>
    some (clockText (Text.decimal (hour12 m)) m ++ ':' :: Text.padded 2 m.second ++ ' ' :: halfDay m)
  | 'T', 1 => some (clockText (Text.padded 2 m.hour) m)
  | 'T', 2 => some (clockText (Text.padded 2 m.hour) m ++ ':' :: Text.padded 2 m.second)
  | _, _ => none

/-- The text of a piece. -/
def Piece.text (m : Moment) : Piece → List Char
  | .quoted text => text
  | .run char count => (part? char count m).getD (List.replicate count char)

/-- A moment in the form of a pattern. -/
def format (m : Moment) (pattern : List Char) : List Char :=
  (pieces pattern).flatMap (Piece.text m)

end Template.Calendar.Pattern
