import Template.Clock
import Template.Proofs.IsoReading

/-!
# `Template.Proofs.TimeText` — times that are read back

A moment in the form of a pattern is a text, and a text is a base time. If the pattern writes out a date and a time as
ISO 8601 does, by month and day or by week and weekday, then the base time is the moment again, without what the pattern
leaves out. Numbers are tried before ISO texts, and no such text is one: behind the year there is a hyphen.

## Contents
- `Moment.floorTo` — a moment without its smallest parts.
- `Moment.secondsText`, `Moment.millisText` — times of day in full.
- `Clock.moment_iso` — base times that are ISO texts.
- `Clock.baseTime_formatted` — formatted moments as base times.
-/

namespace Template

open Calendar Number Text

namespace Moment

/-! ## Parts of a moment -/

/-- The last moment, up to the given one, that is a whole number of so many microseconds away from the start of the day. -/
def floorTo (unit : ℕ) (m : Moment) : Moment :=
  ⟨m.date, m.micros / unit * unit, Nat.lt_of_le_of_lt (Nat.div_mul_le_self _ _) m.micros_lt⟩

/-- A day is a whole number of units, so that it does not matter where the microseconds are counted from. -/
theorem unixMicros_floorTo {unit : ℕ} (h : unit ∣ microsPerDay) (m : Moment) :
    (m.floorTo unit).unixMicros = m.unixMicros / unit * unit := by
  obtain ⟨count, hcount⟩ := h
  have hpos : (unit : ℤ) ≠ 0 := by
    rintro hzero
    rw [Int.natCast_eq_zero.mp hzero, Nat.zero_mul] at hcount
    cases hcount
  have hsplit :
      ((m.date.dayNumber : ℤ) - unixDay) * microsPerDay = unit * (((m.date.dayNumber : ℤ) - unixDay) * count) := by
    rw [hcount]
    push_cast
    ring
  unfold unixMicros floorTo
  rw [hsplit, Int.add_comm (_ * _) (m.micros : ℤ), Int.add_mul_ediv_left _ _ hpos]
  push_cast
  ring

theorem part_bounds (m : Moment) : m.hour < 24 ∧ m.minute < 60 ∧ m.second < 60 := by
  have h := m.micros_lt
  unfold microsPerDay at h
  unfold hour minute second
  omega

/-- A moment is made of its parts, except for microseconds that are left out. -/
theorem make?_parts (m : Moment) {unit : ℕ} (h : unit ∣ 1000000) :
    make? m.date m.hour m.minute m.second (m.microsecond / unit * unit) = some (m.floorTo unit) := by
  obtain ⟨hhour, hminute, hsecond⟩ := m.part_bounds
  have hmicro : m.microsecond < 1000000 := Nat.mod_lt _ (by decide)
  have hless := Nat.div_mul_le_self m.microsecond unit
  have hsum :
      ((m.hour * 60 + m.minute) * 60 + m.second) * 1000000 + m.microsecond / unit * unit = m.micros / unit * unit := by
    obtain ⟨count, hcount⟩ := h
    have hpos : 0 < unit := Nat.pos_of_ne_zero fun hzero => by simp [hzero] at hcount
    have hwhole : (m.hour * 60 + m.minute) * 60 + m.second = m.micros / 1000000 := by
      unfold hour minute second
      omega
    have hsplit : m.micros = m.microsecond + unit * (count * (m.micros / 1000000)) := by
      rw [← Nat.mul_assoc, ← hcount]
      exact (Nat.mod_add_div _ _).symm
    conv_rhs => rw [hsplit, Nat.add_mul_div_left _ _ hpos]
    rw [hwhole, hcount]
    ring
  have hlt := (m.floorTo unit).micros_lt
  unfold make?
  rw [if_pos ⟨hhour, hminute, hsecond, by omega⟩]
  simp only [hsum]
  exact dif_pos hlt

theorem make?_seconds (m : Moment) : make? m.date m.hour m.minute m.second 0 = some (m.floorTo 1000000) := by
  have hparts := m.make?_parts (by decide : 1000000 ∣ 1000000)
  have hmicro : m.microsecond < 1000000 := Nat.mod_lt _ (by decide)
  rwa [Nat.div_eq_of_lt hmicro, Nat.zero_mul] at hparts

/-- Hours, minutes and seconds. -/
def secondsText (m : Moment) : List Char :=
  padded 2 m.hour ++ ':' :: (padded 2 m.minute ++ ':' :: padded 2 m.second)

/-- Hours, minutes, seconds and milliseconds. -/
def millisText (m : Moment) : List Char :=
  padded 2 m.hour ++ ':' :: (padded 2 m.minute ++ ':' :: (padded 2 m.second ++ '.' :: padded 3 (Pattern.millisecond m)))

theorem all_secondsText (m : Moment) {p : Char → Bool} (hdigit : ∀ d < 10, p (Nat.digitChar d) = true)
    (hcolon : p ':' = true) : m.secondsText.all p = true := by
  rw [secondsText, List.all_append, List.all_cons, List.all_append, List.all_cons, hcolon, all_padded hdigit,
    all_padded hdigit, all_padded hdigit]
  rfl

theorem all_millisText (m : Moment) {p : Char → Bool} (hdigit : ∀ d < 10, p (Nat.digitChar d) = true)
    (hcolon : p ':' = true) (hpoint : p '.' = true) : m.millisText.all p = true := by
  rw [millisText, List.all_append, List.all_cons, List.all_append, List.all_cons, List.all_append, List.all_cons, hcolon,
    hpoint, all_padded hdigit, all_padded hdigit, all_padded hdigit, all_padded hdigit]
  rfl

theorem readClock?_secondsText (m : Moment) :
    IsoText.readClock? m.secondsText = some { hour := m.hour, minute := m.minute, second := m.second } := by
  obtain ⟨hhour, hminute, hsecond⟩ := m.part_bounds
  exact IsoText.readClock?_seconds hhour hminute hsecond

theorem readClock?_millisText (m : Moment) :
    IsoText.readClock? m.millisText =
      some { hour := m.hour, minute := m.minute, second := m.second, micro := m.microsecond / 1000 * 1000 } := by
  obtain ⟨hhour, hminute, hsecond⟩ := m.part_bounds
  have hmicro : m.microsecond < 1000000 := Nat.mod_lt _ (by decide)
  exact IsoText.readClock?_millis hhour hminute hsecond (Nat.div_lt_of_lt_mul hmicro)

end Moment

namespace Clock

/-! ## Base times that are ISO texts -/

/-- What gives a moment was not left blank. -/
theorem isEmpty_of_moment {anchor : Anchor} {m : Moment} (h : moment anchor = .ok m) : anchor.isEmpty = false := by
  cases anchor with
  | number n => rfl
  | moment shown offset => rfl
  | text s =>
    rw [Anchor.isEmpty, Bool.eq_false_iff]
    intro hempty
    -- the empty text is neither a number nor a date
    rw [String.isEmpty_iff.mp hempty, show moment (.text "") = .error _ by rfl] at h
    cases h

/-- The base time of a context is that of the test, or else that of the script. -/
theorem baseTime_of_moment {anchor : Anchor} {m : Moment} (h : moment anchor = .ok m) (now : Moment) {context : Context}
    (hcontext : context.startTimeTest = some anchor ∨
      context.startTimeTest = none ∧ context.startTimeScript = some anchor) : baseTime now context = .ok m := by
  have hne := isEmpty_of_moment h
  rcases hcontext with htest | ⟨htest, hscript⟩
  · simp [baseTime, Context.anchor?, htest, Option.filter_some, hne, h]
  · simp [baseTime, Context.anchor?, htest, hscript, Option.filter_some, hne, h]

/-- **Base times that are ISO texts.** A date with a time behind it is not taken for a number. -/
theorem moment_iso {front back : List Char} {date : Date} {clock : IsoText.Clock} {offset : Option ℤ} {shown : Moment}
    (hfront : IsoText.DateText date front) (hblank : back.all (fun c => !isBlank c) = true)
    (htime : IsoText.readTime? back = some (clock, offset))
    (hshown : Moment.make? date clock.hour clock.minute clock.second clock.micro = some shown) :
    moment (.text (String.ofList (front ++ 'T' :: back))) = inRange (IsoText.Stamp.moment? { shown, offset }) := by
  have htrim : trim (front ++ 'T' :: back) = front ++ 'T' :: back := by
    apply trim_of_all
    rw [List.all_append, List.all_cons, hfront.blankless, hblank]
    decide
  have hread := IsoText.Stamp.read?_of_dateText hfront htime hshown
  obtain ⟨width, n, rest, hstart⟩ := hfront.start
  obtain ⟨fault, hfault⟩ := Number.read_of_hyphen (by rw [hstart, List.append_assoc]; rfl) htrim
  simp only [moment, String.toList_ofList, hfault, isoMoment, htrim, hread]

/-! ## Moments that are formatted and read back -/

theorem pieces_millis :
    Pattern.pieces "yyyy-MM-dd'T'HH:mm:ss.SSS".toList =
      [.run 'y' 4, .run '-' 1, .run 'M' 2, .run '-' 1, .run 'd' 2, .quoted ['T'], .run 'H' 2, .run ':' 1, .run 'm' 2,
        .run ':' 1, .run 's' 2, .run '.' 1, .run 'S' 3] := by
  simp [Pattern.pieces]

theorem pieces_week :
    Pattern.pieces "kkkk-'W'WW-E'T'HH:mm:ss".toList =
      [.run 'k' 4, .run '-' 1, .quoted ['W'], .run 'W' 2, .run '-' 1, .run 'E' 1, .quoted ['T'], .run 'H' 2, .run ':' 1,
        .run 'm' 2, .run ':' 1, .run 's' 2] := by
  simp [Pattern.pieces]

theorem format_millis (m : Moment) :
    Pattern.format m "yyyy-MM-dd'T'HH:mm:ss.SSS".toList = m.date.isoText ++ 'T' :: m.millisText := by
  rw [Pattern.format, pieces_millis, Date.isoText, Moment.millisText]
  simp only [List.append_assoc, List.cons_append, List.flatMap_cons, List.flatMap_nil, List.append_nil]
  rfl

theorem format_week (m : Moment) :
    Pattern.format m "kkkk-'W'WW-E'T'HH:mm:ss".toList = m.date.weekText ++ 'T' :: m.secondsText := by
  rw [Pattern.format, pieces_week, Date.weekText, Moment.secondsText]
  simp only [List.append_assoc, List.cons_append, List.flatMap_cons, List.flatMap_nil, List.append_nil]
  rfl

theorem moment_millisText (m : Moment) :
    moment (.text (String.ofList (m.date.isoText ++ 'T' :: m.millisText))) = .ok (m.floorTo 1000) := by
  have hmarks := m.all_millisText (p := fun c => !IsoText.isMark c) (by decide) (by decide) (by decide)
  have hblank := m.all_millisText (p := fun c => !isBlank c) (by decide) (by decide) (by decide)
  have htime := IsoText.readTime?_plain (List.all_eq_true.mp hmarks) m.readClock?_millisText rfl
  rw [moment_iso (IsoText.dateText_iso m.date) hblank htime (m.make?_parts (by decide))]
  rfl

theorem moment_weekText (m : Moment) :
    moment (.text (String.ofList (m.date.weekText ++ 'T' :: m.secondsText))) = .ok (m.floorTo 1000000) := by
  have hmarks := m.all_secondsText (p := fun c => !IsoText.isMark c) (by decide) (by decide)
  have hblank := m.all_secondsText (p := fun c => !isBlank c) (by decide) (by decide)
  have htime := IsoText.readTime?_plain (List.all_eq_true.mp hmarks) m.readClock?_secondsText rfl
  rw [moment_iso (IsoText.dateText_week m.date) hblank htime m.make?_seconds]
  rfl

/-- **Formatted moments as base times.** Written with date, time and milliseconds a moment is read back as the same moment
with whole milliseconds, and written with week, weekday and time as the same moment with whole seconds. -/
theorem baseTime_formatted (now m : Moment) (context : Context) :
    baseTime now { context with
      startTimeTest := some (.text (String.ofList (Pattern.format m "yyyy-MM-dd'T'HH:mm:ss.SSS".toList))) } =
        .ok (m.floorTo 1000) ∧
    baseTime now { context with
      startTimeTest := some (.text (String.ofList (Pattern.format m "kkkk-'W'WW-E'T'HH:mm:ss".toList))) } =
        .ok (m.floorTo 1000000) := by
  rw [format_millis, format_week]
  exact ⟨baseTime_of_moment (moment_millisText m) now (.inl rfl), baseTime_of_moment (moment_weekText m) now (.inl rfl)⟩

end Clock

end Template
