import Template.Calendar.Moment
import Template.Text.Digit

/-!
# `Template.Calendar.IsoText` — ISO 8601 texts

A text gives a day and, behind one character of any kind, a time of day and an offset from UTC:

    date   ::= YYYY-MM-DD | YYYYMMDD | YYYY-Www[-D] | YYYYWww[D]
    time   ::= hh [: mm [: ss]] [fraction]         with all of the colons or none
    offset ::= 'Z' | ('+' | '-') time

Of a fraction the first six digits count, and it may follow the last part that is given. Digits are those of
ASCII. The text is cut into date and time by its shape alone (`dateLength`), because the character between
them may be any.

* `Stamp` — a date, a time and perhaps an offset;
* `Stamp.read?` — the reader;
* `Stamp.moment?` — the moment in UTC, if it is in range.
-/

namespace Template.Calendar.IsoText

/-- Whether the character at a place is an ASCII digit. -/
def digitAt (text : List Char) (place : Nat) : Bool :=
  (text[place]?.bind Text.asciiDigit?).isSome

/-- The number in the first `count` characters, which must be digits, and the rest. -/
def takeNumber? (count : Nat) (text : List Char) : Option (Nat × List Char) := do
  let digits ← (text.take count).mapM Text.asciiDigit?
  if digits.length = count then some (Text.ofDigits digits, text.drop count) else none

/-- How many digits stand at the front of a text. -/
def leadingDigits (text : List Char) : Nat :=
  (text.takeWhile fun c => (Text.asciiDigit? c).isSome).length

/-- The length of the date at the front of a text.

Week dates leave a choice where a digit or a hyphen may be the separator: a hyphen with two digits behind it
is taken for the separator, and without hyphens the number of digits decides, since those of a time come in
pairs. -/
def dateLength (text : List Char) : Nat :=
  if text.length = 7 then 7
  else if text[4]? = some '-' then
    if text[5]? = some 'W' then
      if text[8]? = some '-' then if digitAt text 10 then 8 else 10
      else 8
    else 10
  else if text[4]? = some 'W' then
    let stop := 7 + leadingDigits (text.drop 7)
    if stop < 9 then stop else if stop % 2 = 0 then 7 else 8
  else 8

/-- The day that a date names. -/
def readDate? (text : List Char) : Option Date := do
  let (year, rest) ← takeNumber? 4 text
  let (hyphens, rest) := match rest with
    | '-' :: rest => (true, rest)
    | rest => (false, rest)
  match rest with
  | 'W' :: rest =>
    let (week, rest) ← takeNumber? 2 rest
    match hyphens, rest with
    | _, [] => Date.ofIsoWeek? year week 1
    | true, '-' :: rest | false, rest =>
      let (weekday, rest) ← takeNumber? 1 rest
      if rest.isEmpty then Date.ofIsoWeek? year week weekday else none
    | _, _ => none
  | rest =>
    let (month, rest) ← takeNumber? 2 rest
    let rest ← match hyphens, rest with
      | true, '-' :: rest | false, rest => some rest
      | _, _ => none
    let (day, rest) ← takeNumber? 2 rest
    if rest.isEmpty then Date.make? year month day else none

/-- A time of day as it is written; nothing is said about ranges. -/
structure Clock where
  hour : Nat := 0
  minute : Nat := 0
  second : Nat := 0
  micro : Nat := 0
  /-- Whether something stands behind the time. -/
  more : Bool := false

/-- Whether a text is at its end. A NUL ends a text as well. -/
def atEnd : List Char → Bool
  | [] => true
  | c :: _ => c == '\x00'

/-- The microseconds that a fraction of a second gives: of its digits the first six count. -/
def readFraction? (text : List Char) : Option (Nat × Bool) := do
  let count := min 6 text.length
  let (value, rest) ← takeNumber? count text
  return (value * Nat.pow 10 (6 - count), !atEnd (rest.drop (leadingDigits rest)))

/-- What follows a part of a time. -/
inductive After where
  /-- Nothing, or one character that belongs to no part. -/
  | nothing (more : Bool)
  /-- Another part, or the fraction when there is no part left. -/
  | part (text : List Char)
  /-- A fraction. -/
  | fraction (text : List Char)

/-- What follows a part of a time; `colons` tells whether parts are separated. A single ASCII character is
left over, whatever it is. -/
def after? (colons : Bool) : List Char → Option After
  | [] => some (.nothing false)
  | [c] => if c.toNat < 128 then some (.nothing (!atEnd [c])) else none
  | c :: rest =>
    if colons && c == ':' then some (.part rest)
    else if c == '.' || c == ',' then some (.fraction rest)
    else if !colons then some (.part (c :: rest))
    else none

/-- A time of day: hours, minutes and seconds, of which the later ones may be missing, and a fraction. -/
def readClock? (text : List Char) : Option Clock := do
  let (hour, rest) ← takeNumber? 2 text
  let colons := rest.head? == some ':'
  match ← after? colons rest with
  | .nothing more => return { hour, more }
  | .fraction rest =>
    let (micro, more) ← readFraction? rest
    return { hour, micro, more }
  | .part rest =>
    let (minute, rest) ← takeNumber? 2 rest
    match ← after? colons rest with
    | .nothing more => return { hour, minute, more }
    | .fraction rest =>
      let (micro, more) ← readFraction? rest
      return { hour, minute, micro, more }
    | .part rest =>
      let (second, rest) ← takeNumber? 2 rest
      match ← after? colons rest with
      | .nothing more => return { hour, minute, second, more }
      | .fraction rest | .part rest =>
        let (micro, more) ← readFraction? rest
        return { hour, minute, second, micro, more }

/-- An offset in microseconds. The offset is east or west by less than a day; without whole seconds it is
none at all. -/
def offsetMicros? (west : Bool) (clock : Clock) : Option Int :=
  let seconds := (clock.hour * 60 + clock.minute) * 60 + clock.second
  if seconds = 0 then some 0
  else
    let size := seconds * 1000000 + clock.micro
    if size < microsPerDay then some (if west then -(size : Int) else size) else none

/-- A moment as it is written. -/
structure Stamp where
  /-- The moment as a clock at the offset shows it. -/
  shown : Moment
  /-- The offset of that clock in microseconds east of UTC, if it is given. -/
  offset : Option Int

/-- A time of day and the offset behind it. With an offset, one character that belongs to neither may stand
between them. -/
def readTime? (text : List Char) : Option (Clock × Option Int) := do
  let isMark := fun c => c == '+' || c == '-' || c == 'Z'
  let clock ← readClock? (text.takeWhile fun c => !isMark c)
  match text.dropWhile fun c => !isMark c with
  | [] => if clock.more then none else return (clock, none)
  | 'Z' :: rest => if atEnd rest then return (clock, some 0) else none
  | mark :: rest =>
    let ahead ← readClock? rest
    if ahead.more then none else return (clock, some (← offsetMicros? (mark == '-') ahead))

/-- The stamp that a text is. -/
def Stamp.read? (text : List Char) : Option Stamp := do
  let length := dateLength text
  let date ← readDate? (text.take length)
  if text.length ≤ length then
    return { shown := ← Moment.make? date 0 0 0 0, offset := none }
  else
    let (clock, offset) ← readTime? (text.drop (length + 1))
    return { shown := ← Moment.make? date clock.hour clock.minute clock.second clock.micro, offset }

/-- The moment in UTC; a stamp without offset is taken to be in UTC. -/
def Stamp.moment? (stamp : Stamp) : Option Moment :=
  match stamp.offset with
  | none => some stamp.shown
  | some offset => stamp.shown.add? (-offset)

end Template.Calendar.IsoText
