import Mathlib.Data.List.TakeWhile
import Template.Calendar.IsoText
import Template.Proofs.Months
import Template.Proofs.Parts
import Template.Proofs.Spelling
import Template.Proofs.Weeks

/-!
# `Template.Proofs.IsoReading` — ISO 8601 texts of full length

A text that writes out a whole date, a letter `T` and a time with all of its colons is read part by part, because each part
is a column of fixed width: a number that is smaller than a power of ten fills so many digits. The reader has to find the
end of the date from the shape of the text; both kinds of date are ten characters long, and behind a week date the `T` tells
that there is no ordinal.

## Contents
- `exists_row_column`, `takeNumber?_padded` — columns.
- `Date.isoText`, `Date.weekText` — the two kinds of date, and how they are read.
- `readClock?_seconds`, `readClock?_millis`, `readTime?_plain`, `readTime?_offset` — times, with an offset or without.
- `DateText`, `Stamp.read?_of_dateText` — dates of either kind, with a time behind them.
- `Number.read_of_hyphen` — a date is not a number.
-/

namespace Template

open Calendar Number Text

namespace Text

/-! ## Columns -/

/-- A number below a power of ten fills a column of that width. -/
theorem exists_row_column {width n : ℕ} (hwidth : 0 < width) (h : n < 10 ^ width) :
    ∃ digits, padded width n = row digits ∧ Decimal digits ∧ ofDigits digits = n ∧ digits.length = width := by
  obtain ⟨digits, hrow, hdec, hval, -⟩ := exists_row_padded width n
  refine ⟨digits, hrow, hdec, hval, ?_⟩
  have hshort : (decimal n).length ≤ width := (Nat.length_toDigits_le_iff (by decide) hwidth).mpr h
  rw [← length_row, ← hrow, padded, List.length_append, List.length_replicate, Nat.sub_add_cancel hshort]

theorem length_padded {width n : ℕ} (hwidth : 0 < width) (h : n < 10 ^ width) : (padded width n).length = width := by
  obtain ⟨digits, hrow, -, -, hlength⟩ := exists_row_column hwidth h
  rw [hrow, length_row, hlength]

/-- A class that has all digits has all columns. -/
theorem all_padded {p : Char → Bool} (hp : ∀ d < 10, p (Nat.digitChar d) = true) (width n : ℕ) :
    (padded width n).all p = true := by
  obtain ⟨digits, hrow, hdec, -⟩ := exists_row_padded width n
  rw [hrow, row, List.all_map, List.all_eq_true]
  exact fun d hd => hp d (hdec d hd)

/-- A column does not start with a letter. -/
theorem padded_ne_letter (width n : ℕ) {c : Char} (hc : asciiDigit? c = none) (rest text : List Char) :
    padded width n ++ rest ≠ c :: text := by
  intro h
  obtain ⟨digits, hrow, hdec, -, hne⟩ := exists_row_padded width n
  rw [hrow] at h
  cases digits with
  | nil => exact absurd rfl hne
  | cons d digits =>
    rw [row, List.map_cons, List.cons_append, List.cons.injEq] at h
    rw [← h.1, asciiDigit?_digitChar d (hdec d List.mem_cons_self)] at hc
    cases hc

theorem padded_one (n : ℕ) : padded 1 n = decimal n := by
  obtain ⟨digits, hrow, -, -, hne, -⟩ := exists_row_decimal n
  have hlength : 1 - (decimal n).length = 0 := by
    rw [hrow, length_row]
    have := List.length_pos_of_ne_nil hne
    omega
  rw [padded, hlength]
  rfl

theorem mapM_asciiDigit?_row {digits : List ℕ} (h : Decimal digits) : (row digits).mapM asciiDigit? = some digits := by
  induction digits with
  | nil => rfl
  | cons d digits ih =>
    have hrest := ih fun e he => h e (List.mem_cons_of_mem d he)
    have hfirst := asciiDigit?_digitChar d (h d List.mem_cons_self)
    show (Nat.digitChar d :: row digits).mapM asciiDigit? = _
    rw [List.mapM_cons, hfirst, hrest]
    rfl

end Text

namespace Calendar.IsoText

theorem takeNumber?_row {digits : List ℕ} (h : Decimal digits) (rest : List Char) :
    takeNumber? digits.length (row digits ++ rest) = some (ofDigits digits, rest) := by
  have htake : (row digits ++ rest).take digits.length = row digits := by
    rw [← length_row digits, List.take_left]
  have hdrop : (row digits ++ rest).drop digits.length = rest := by
    rw [← length_row digits, List.drop_left]
  unfold takeNumber?
  rw [htake, hdrop, mapM_asciiDigit?_row h]
  show (if digits.length = digits.length then _ else _) = _
  rw [if_pos rfl]

/-- **A column is read as the number in it.** -/
theorem takeNumber?_padded {width n : ℕ} (hwidth : 0 < width) (h : n < 10 ^ width) (rest : List Char) :
    takeNumber? width (padded width n ++ rest) = some (n, rest) := by
  obtain ⟨digits, hrow, hdec, hval, hlength⟩ := exists_row_column hwidth h
  rw [hrow, ← hlength, takeNumber?_row hdec, hval]

theorem takeNumber?_padded_end {width n : ℕ} (hwidth : 0 < width) (h : n < 10 ^ width) :
    takeNumber? width (padded width n) = some (n, []) := by
  have hread := takeNumber?_padded hwidth h []
  rwa [List.append_nil] at hread

/-! ## Times -/

@[simp]
theorem padded_ne_nil (width n : ℕ) : padded width n ≠ [] := by
  obtain ⟨digits, hrow, -, -, hne⟩ := exists_row_padded width n
  rw [hrow]
  simp [row, hne]

@[simp]
theorem after?_nil (colons : Bool) : after? colons [] = some (.nothing false) := rfl

/-- A colon with something behind it separates two parts. -/
theorem after?_colon {text : List Char} (h : text ≠ []) : after? true (':' :: text) = some (.part text) := by
  cases text with
  | nil => exact absurd rfl h
  | cons c rest => rfl

theorem after?_point {text : List Char} (h : text ≠ []) : after? true ('.' :: text) = some (.fraction text) := by
  cases text with
  | nil => exact absurd rfl h
  | cons c rest => rfl

/-- Three digits of a fraction. -/
theorem readFraction?_millis {milli : ℕ} (h : milli < 1000) :
    readFraction? (padded 3 milli) = some (milli * 1000, false) := by
  have hlength : (padded 3 milli).length = 3 := length_padded (by decide) h
  have hread := takeNumber?_padded_end (by decide : 0 < 3) h
  unfold readFraction?
  rw [hlength]
  show (takeNumber? 3 (padded 3 milli)).bind _ = _
  rw [hread]
  rfl

section Clock

variable {hour minute second : ℕ} (hhour : hour < 24) (hminute : minute < 60) (hsecond : second < 60)
include hhour hminute

/-- Hours and minutes. -/
theorem readClock?_minutes : readClock? (padded 2 hour ++ ':' :: padded 2 minute) = some { hour, minute } := by
  have hhour' : hour < 100 := by omega
  have hminute' : minute < 100 := by omega
  simp [readClock?, takeNumber?_padded, takeNumber?_padded_end, after?_colon, hhour', hminute']

include hsecond

/-- Hours, minutes and seconds. -/
theorem readClock?_seconds :
    readClock? (padded 2 hour ++ ':' :: (padded 2 minute ++ ':' :: padded 2 second)) = some { hour, minute, second } := by
  have hhour' : hour < 100 := by omega
  have hminute' : minute < 100 := by omega
  have hsecond' : second < 100 := by omega
  simp [readClock?, takeNumber?_padded, takeNumber?_padded_end, after?_colon, hhour', hminute', hsecond']

/-- Hours, minutes, seconds and milliseconds. -/
theorem readClock?_millis {milli : ℕ} (hmilli : milli < 1000) :
    readClock? (padded 2 hour ++ ':' :: (padded 2 minute ++ ':' :: (padded 2 second ++ '.' :: padded 3 milli))) =
      some { hour, minute, second, micro := milli * 1000 } := by
  have hhour' : hour < 100 := by omega
  have hminute' : minute < 100 := by omega
  have hsecond' : second < 100 := by omega
  simp [readClock?, takeNumber?_padded, after?_colon, after?_point, readFraction?_millis hmilli, hhour', hminute', hsecond']

end Clock

/-- Whether a character starts an offset. -/
abbrev isMark (c : Char) : Bool := c == '+' || c == '-' || c == 'Z'

section Time

variable {text : List Char} {clock : Clock} (hmarks : ∀ c ∈ text, (!isMark c) = true)
  (hread : readClock? text = some clock)
include hmarks hread

/-- A time alone. -/
theorem readTime?_plain (hmore : clock.more = false) : readTime? text = some (clock, none) := by
  have hfront : text.takeWhile (fun c => !isMark c) = text := List.takeWhile_eq_self_iff.mpr hmarks
  have hback : text.dropWhile (fun c => !isMark c) = [] := List.dropWhile_eq_nil_iff.mpr hmarks
  unfold readTime?
  dsimp only
  rw [hfront, hread, hback]
  simp [hmore]

/-- A time with an offset in hours and minutes behind it. -/
theorem readTime?_offset (west : Bool) {hours minutes : ℕ} {offset : ℤ} (hhours : hours < 24) (hminutes : minutes < 60)
    (hoffset : offsetMicros? west { hour := hours, minute := minutes } = some offset) :
    readTime? (text ++ (if west then '-' else '+') :: (padded 2 hours ++ ':' :: padded 2 minutes)) =
      some (clock, some offset) := by
  have hzone := readClock?_minutes hhours hminutes
  generalize padded 2 hours ++ ':' :: padded 2 minutes = zone at hzone ⊢
  unfold readTime?
  dsimp only
  rw [List.takeWhile_append_of_pos hmarks, List.dropWhile_append_of_pos hmarks]
  cases west with
  | false => simp [hread, hzone, hoffset]
  | true => simp [hread, hzone, hoffset]

end Time

/-- An offset of whole minutes by less than a day. -/
theorem offsetMicros?_minutes (west : Bool) {size : ℕ} (h : size < 1440) :
    offsetMicros? west { hour := size / 60, minute := size % 60 } =
      some ((if west then -(size : ℤ) else size) * 60000000) := by
  have hseconds : (size / 60 * 60 + size % 60) * 60 + 0 = size * 60 := by omega
  unfold offsetMicros? microsPerDay
  dsimp only
  rw [hseconds]
  split
  · have hzero : size = 0 := by omega
    subst hzero
    cases west <;> rfl
  · rw [if_pos (by omega)]
    cases west
    · rw [if_neg Bool.false_ne_true, if_neg Bool.false_ne_true]
      push_cast
      ring_nf
    · rw [if_pos rfl, if_pos rfl]
      push_cast
      ring_nf

end Calendar.IsoText

/-! ## Dates -/

namespace Calendar.Date

/-- A date by month and day. -/
def isoText (date : Date) : List Char :=
  padded 4 date.year ++ '-' :: (padded 2 date.month ++ '-' :: padded 2 date.day)

/-- A date by week and weekday. -/
def weekText (date : Date) : List Char :=
  padded 4 date.isoWeek.1 ++ '-' :: 'W' :: (padded 2 date.isoWeek.2 ++ '-' :: decimal (date.weekday + 1))

/-- A class that has digits and hyphens has all dates by month and day. -/
theorem all_isoText (date : Date) {p : Char → Bool} (hdigit : ∀ d < 10, p (Nat.digitChar d) = true)
    (hhyphen : p '-' = true) : date.isoText.all p = true := by
  rw [isoText, List.all_append, List.all_cons, List.all_append, List.all_cons, hhyphen, all_padded hdigit,
    all_padded hdigit, all_padded hdigit]
  rfl

theorem all_weekText (date : Date) {p : Char → Bool} (hdigit : ∀ d < 10, p (Nat.digitChar d) = true)
    (hhyphen : p '-' = true) (hletter : p 'W' = true) : date.weekText.all p = true := by
  rw [weekText, ← padded_one, List.all_append, List.all_cons, List.all_cons, List.all_append, List.all_cons, hhyphen,
    hletter, all_padded hdigit, all_padded hdigit, all_padded hdigit]
  rfl

theorem column_bounds (date : Date) : date.year < 10 ^ 4 ∧ date.month < 10 ^ 2 ∧ date.day < 10 ^ 2 := by
  have := daysInMonth_bounds date.year date.month
  have := date.isDay
  omega

theorem week_column_bounds (date : Date) :
    date.isoWeek.1 < 10 ^ 4 ∧ date.isoWeek.2 < 10 ^ 2 ∧ date.weekday + 1 < 10 ^ 1 := by
  have := date.isoWeek_spec.1
  have := date.isoWeek_le
  have hday : date.weekday < 7 := Nat.mod_lt _ (by decide)
  omega

@[simp]
theorem length_isoText (date : Date) : date.isoText.length = 10 := by
  obtain ⟨hyear, hmonth, hday⟩ := date.column_bounds
  rw [isoText, List.length_append, List.length_cons, List.length_append, List.length_cons, length_padded (by decide) hyear,
    length_padded (by decide) hmonth, length_padded (by decide) hday]

theorem readDate?_isoText (date : Date) : IsoText.readDate? date.isoText = some date := by
  obtain ⟨hyear, hmonth, hday⟩ := date.column_bounds
  have hdate : make? date.year date.month date.day = some date := make?_eq_some_iff.mpr ⟨rfl, rfl, rfl⟩
  rw [isoText, IsoText.readDate?, IsoText.takeNumber?_padded (by decide) hyear, Option.bind_eq_bind, Option.bind_some]
  dsimp only
  split
  · rename_i h
    exact absurd h (padded_ne_letter _ _ (by decide) _ _)
  · show (IsoText.takeNumber? 2 (padded 2 date.month ++ _)).bind _ = _
    rw [IsoText.takeNumber?_padded (by decide) hmonth]
    show (IsoText.takeNumber? 2 (padded 2 date.day)).bind _ = _
    rw [IsoText.takeNumber?_padded_end (by decide) hday]
    exact hdate

@[simp]
theorem length_weekText (date : Date) : date.weekText.length = 10 := by
  obtain ⟨hyear, hweek, hday⟩ := date.week_column_bounds
  rw [weekText, ← padded_one, List.length_append, List.length_cons, List.length_cons, List.length_append, List.length_cons,
    length_padded (by decide) hyear, length_padded (by decide) hweek, length_padded (by decide) hday]

theorem readDate?_weekText (date : Date) : IsoText.readDate? date.weekText = some date := by
  obtain ⟨hyear, hweek, hday⟩ := date.week_column_bounds
  rw [weekText, ← padded_one, IsoText.readDate?, IsoText.takeNumber?_padded (by decide) hyear]
  show (IsoText.takeNumber? 2 (padded 2 date.isoWeek.2 ++ _)).bind _ = _
  rw [IsoText.takeNumber?_padded (by decide) hweek]
  show (IsoText.takeNumber? 1 (padded 1 (date.weekday + 1))).bind _ = _
  rw [IsoText.takeNumber?_padded_end (by decide) hday]
  exact date.ofIsoWeek?_isoWeek

end Calendar.Date

namespace Calendar.IsoText

/-- Behind its date, a text with hyphens goes on at the eleventh character. -/
theorem dateLength_isoText (date : Date) (rest : List Char) : dateLength (date.isoText ++ rest) = 10 := by
  obtain ⟨hyear, -⟩ := date.column_bounds
  have hlength : (date.isoText ++ rest).length ≠ 7 := by
    rw [List.length_append, date.length_isoText]
    omega
  have hhyphen : (date.isoText ++ rest)[4]? = some '-' := by
    simp [Date.isoText, length_padded (by decide) hyear]
  -- the letter of a week would stand where the month does
  have hletter : (date.isoText ++ rest)[5]? ≠ some 'W' := by
    have hhead : (date.isoText ++ rest)[5]? = (padded 2 date.month ++ '-' :: (padded 2 date.day ++ rest)).head? := by
      have hcolumn := length_padded (by decide) hyear
      rw [List.head?_eq_getElem?, Date.isoText, List.append_assoc, List.getElem?_append_right (by omega), hcolumn,
        List.cons_append, List.append_assoc]
      rfl
    rw [hhead]
    intro h
    obtain ⟨text, htext⟩ := List.head?_eq_some_iff.mp h
    exact padded_ne_letter _ _ (by decide) _ _ htext
  rw [dateLength, if_neg hlength, if_pos hhyphen, if_neg hletter]

theorem dateLength_weekText (date : Date) (rest : List Char) : dateLength (date.weekText ++ 'T' :: rest) = 10 := by
  obtain ⟨hyear, hweek, -⟩ := date.week_column_bounds
  have hlength : (date.weekText ++ 'T' :: rest).length ≠ 7 := by
    rw [List.length_append, date.length_weekText]
    omega
  have hhyphen : (date.weekText ++ 'T' :: rest)[4]? = some '-' := by
    simp [Date.weekText, length_padded (by decide) hyear]
  have hletter : (date.weekText ++ 'T' :: rest)[5]? = some 'W' := by
    simp [Date.weekText, List.getElem?_append, length_padded (by decide) hyear]
  have hsecond : (date.weekText ++ 'T' :: rest)[8]? = some '-' := by
    simp [Date.weekText, List.getElem?_append, length_padded (by decide) hyear, length_padded (by decide) hweek]
  -- a digit here would make the second hyphen the separator of a time
  have hbehind : digitAt (date.weekText ++ 'T' :: rest) 10 = false := by
    rw [digitAt, List.getElem?_append_right (by rw [date.length_weekText]), date.length_weekText]
    rfl
  rw [dateLength, if_neg hlength, if_pos hhyphen, if_pos hletter, if_pos hsecond, hbehind]
  rfl

/-- A date in ten characters, which starts with a row of digits and a hyphen. Whatever stands behind a `T` does not change
where it ends. -/
structure DateText (date : Date) (text : List Char) : Prop where
  length : text.length = 10
  dateLength : ∀ back, dateLength (text ++ 'T' :: back) = 10
  read : readDate? text = some date
  start : ∃ width n rest, text = padded width n ++ '-' :: rest
  blankless : text.all (fun c => !isBlank c) = true

theorem dateText_iso (date : Date) : DateText date date.isoText where
  length := date.length_isoText
  dateLength _ := dateLength_isoText date _
  read := date.readDate?_isoText
  start := ⟨4, date.year, _, rfl⟩
  blankless := date.all_isoText (by decide) (by decide)

theorem dateText_week (date : Date) : DateText date date.weekText where
  length := date.length_weekText
  dateLength _ := dateLength_weekText date _
  read := date.readDate?_weekText
  start := ⟨4, date.isoWeek.1, _, rfl⟩
  blankless := date.all_weekText (by decide) (by decide) (by decide)

/-- **A date and a time together.** -/
theorem Stamp.read?_of_dateText {front back : List Char} {date : Date} {clock : Clock} {offset : Option ℤ}
    {shown : Moment} (hfront : DateText date front) (htime : readTime? back = some (clock, offset))
    (hshown : Moment.make? date clock.hour clock.minute clock.second clock.micro = some shown) :
    Stamp.read? (front ++ 'T' :: back) = some { shown, offset } := by
  have htake : (front ++ 'T' :: back).take 10 = front := by rw [← hfront.length, List.take_left]
  have hdrop : (front ++ 'T' :: back).drop (10 + 1) = back := by
    rw [← hfront.length, List.drop_append, List.drop_of_length_le (Nat.le_succ _)]
    simp
  have hlong : ¬(front ++ 'T' :: back).length ≤ 10 := by
    rw [List.length_append, hfront.length, List.length_cons]
    omega
  unfold Stamp.read?
  dsimp only
  rw [hfront.dateLength, htake, hfront.read, Option.bind_eq_bind, Option.bind_some, if_neg hlong, hdrop, htime]
  show (Moment.make? date clock.hour clock.minute clock.second clock.micro).bind _ = _
  rw [hshown]
  rfl

end Calendar.IsoText

/-! ## Texts that are not numbers -/

theorem Text.trim_of_all {text : List Char} (h : text.all (fun c => !isBlank c) = true) : trim text = text := by
  rw [← List.not_any_eq_all_not, Bool.not_eq_true'] at h
  exact trim_of_blankless h

/-- **A text with a hyphen behind its first digits is not a number.** -/
theorem Number.read_of_hyphen {width n : ℕ} {text rest : List Char} (hstart : text = padded width n ++ '-' :: rest)
    (htrim : trim text = text) : ∃ fault, Number.read text false = .error fault := by
  obtain ⟨digits, hrow, hdec, -, hne⟩ := exists_row_padded width n
  have hread : Literal.read? text = none := by
    have hhead : ∀ {c}, digitValue? c = none → (row digits ++ '-' :: rest).head? ≠ some c :=
      fun hc => head_row_ne_of_digit hdec hne hc _
    have hends : EndsParts none ('-' :: rest) := by
      rintro c ⟨⟩
      exact ⟨by decide, fun _ => by decide⟩
    have hsign := takeSign_text .missing (hhead (by decide)) (hhead (by decide))
    have hnone : Decimal ((none : Option (List ℕ)).getD []) := decimal_nil
    have hparts := readUnsigned?_parts false hdec hnone hends
    rw [List.isEmpty_eq_false_iff.mpr hne] at hparts
    rw [Sign.text, List.nil_append] at hsign
    rw [hstart, hrow, Literal.read?, hsign]
    exact hparts
  refine ⟨.notNumber (String.ofList text), ?_⟩
  rw [Number.read, htrim, hread, Bool.and_false]
  rfl

end Template
