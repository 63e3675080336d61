import Template.Proofs.ShownTime
import Template.Proofs.TimeText

/-!
# `Template.Proofs.Anchors` — base times for one instant

An instant can be given as a base time in many ways: as Unix time in seconds or milliseconds, as a number or a text, as an
ISO text at any offset from UTC, and as a moment that knows its offset or does not. All of them give one moment, as long as
the two kinds of Unix time can be told apart by their size, and the seconds that are calculated from it are a base time for
it again.

## Contents
- `Encodes` — the base times for a number of seconds.
- `moment_of_encodes` — all of them are one moment.
- `anchors_agree` — the same of base times in a context, with the ways back.
-/

namespace Template

open Calendar Number Text

namespace Moment

/-- Seconds are the moment that they are counted to. -/
theorem ofUnix_of_seconds {m : Moment} {s : ℤ} (hm : m.unixMicros = s * 1000000) (h : s.natAbs < 10 ^ 10) :
    ofUnix (.integer s) = .ok m := by
  obtain ⟨found, hfound, hmicros⟩ := ofUnix_seconds h
  rw [hfound, unixMicros_injective (hmicros.trans hm.symm)]

/-- Milliseconds are the same moment, if there are whole seconds of them and enough to know that they are none. -/
theorem ofUnix_of_millis {m : Moment} {s : ℤ} (hm : m.unixMicros = s * 1000000) (h : 10 ^ 7 ≤ s.natAbs) :
    ofUnix (.integer (1000 * s)) = .ok m := by
  have hmillis : m.unixMicros = 1000 * (1000 * s) := by omega
  obtain ⟨found, hfound, -, hmicros⟩ := ofUnix_millis (by omega : 10 ^ 10 ≤ (1000 * s).natAbs) ⟨m, hmillis⟩
  rw [hfound, unixMicros_injective ((hmicros ⟨s, rfl⟩).trans hmillis.symm)]

/-- What a clock at an offset shows is as far from the instant as the offset. -/
theorem add?_offset {m shown : Moment} {offset : ℤ} (h : shown.unixMicros = m.unixMicros + offset) :
    shown.add? (-offset) = some m :=
  add?_eq_some_iff.mpr (by omega)

end Moment

namespace Clock

/-- An ISO text for what a clock shows at an offset of so many minutes east or west. -/
def offsetText (shown : Moment) (west : Bool) (size : ℕ) : List Char :=
  shown.date.isoText ++ 'T' :: (shown.secondsText ++
    (if west then '-' else '+') :: (padded 2 (size / 60) ++ ':' :: padded 2 (size % 60)))

/-- The base times for the instant `s` seconds after the start of 1970. Offsets are in whole minutes, by less than a day. -/
inductive Encodes (s : ℤ) : Anchor → Prop where
  | seconds : Encodes s (.number (.integer s))
  | millis : Encodes s (.number (.integer (1000 * s)))
  | secondsText : Encodes s (.text (String.ofList (Text.integer s)))
  | millisText : Encodes s (.text (String.ofList (Text.integer (1000 * s))))
  | isoText (shown : Moment) (west : Bool) (size : ℕ) (hsize : size < 1440)
      (hshown : shown.unixMicros = s * 1000000 + (if west then -(size : ℤ) else size) * 60000000) :
      Encodes s (.text (String.ofList (offsetText shown west size)))
  | aware (shown : Moment) (offset : ℤ) (hoffset : offset.natAbs < 1440)
      (hshown : shown.unixMicros = s * 1000000 + offset * 60000000) : Encodes s (.moment shown (some offset))
  | naive (shown : Moment) (hshown : shown.unixMicros = s * 1000000) : Encodes s (.moment shown none)

/-- An ISO text with an offset is the instant that it shows. -/
theorem moment_offsetText {m shown : Moment} {west : Bool} {size : ℕ} (hsize : size < 1440)
    (hshown : shown.unixMicros = m.unixMicros + (if west then -(size : ℤ) else size) * 60000000)
    (hwhole : 1000000 ∣ m.unixMicros) : moment (.text (String.ofList (offsetText shown west size))) = .ok m := by
  have hmarks := shown.all_secondsText (p := fun c => !IsoText.isMark c) (by decide) (by decide)
  have hblank : (shown.secondsText ++ (if west then '-' else '+') ::
      (padded 2 (size / 60) ++ ':' :: padded 2 (size % 60))).all (fun c => !isBlank c) = true := by
    rw [List.all_append, List.all_cons, List.all_append, List.all_cons, shown.all_secondsText (by decide) (by decide),
      all_padded (by decide), all_padded (by decide)]
    cases west <;> decide
  have hoffset := IsoText.offsetMicros?_minutes west hsize
  have htime := IsoText.readTime?_offset (List.all_eq_true.mp hmarks) shown.readClock?_secondsText west
    (by omega : size / 60 < 24) (Nat.mod_lt size (by decide)) hoffset
  -- offsets are in whole minutes, so that nothing is lost with the microseconds that the text leaves out
  have hfloor : shown.floorTo 1000000 = shown := by
    apply Moment.unixMicros_injective
    rw [Moment.unixMicros_floorTo (by decide)]
    omega
  have hparts := shown.make?_seconds
  rw [hfloor] at hparts
  rw [offsetText, moment_iso (IsoText.dateText_iso shown.date) hblank htime hparts]
  show inRange (shown.add? _) = _
  rw [Moment.add?_offset hshown]
  rfl

/-- **All base times for one instant are one moment.** -/
theorem moment_of_encodes {s : ℤ} (hlarge : 10 ^ 7 ≤ s.natAbs) (hsmall : s.natAbs < 10 ^ 10) {m : Moment}
    (hm : m.unixMicros = s * 1000000) {anchor : Anchor} (h : Encodes s anchor) : moment anchor = .ok m := by
  have hseconds := Moment.ofUnix_of_seconds hm hsmall
  have hmillis := Moment.ofUnix_of_millis hm hlarge
  cases h with
  | seconds =>
    rw [moment, hseconds]
    rfl
  | millis =>
    rw [moment, hmillis]
    rfl
  | secondsText =>
    have hread := Number.read_integer (lt_exactDigits (by omega : s.natAbs < 10 ^ 18)) false
    simp only [moment, String.toList_ofList, hread, hseconds]
  | millisText =>
    have hread := Number.read_integer (lt_exactDigits (by omega : (1000 * s).natAbs < 10 ^ 18)) false
    simp only [moment, String.toList_ofList, hread, hmillis]
  | isoText shown west size hsize hshown =>
    exact moment_offsetText hsize (by rw [hshown, hm]) ⟨s, by omega⟩
  | aware shown offset hoffset hshown =>
    have hback := Moment.add?_offset (by rw [hshown, hm] : shown.unixMicros = m.unixMicros + offset * 60000000)
    rw [moment, hback]
    rfl
  | naive shown hshown =>
    rw [moment, Moment.unixMicros_injective (hshown.trans hm.symm)]

/-- **Base times agree.** An instant in whole seconds, at least 10 ^ 7 and less than 10 ^ 10 of them away from the start of
1970, is a moment that a clock at every offset shows; every base time for it, of a test or of a script, is that moment, and
the seconds that are calculated without a shift are those of the instant. They are a base time for it again, as a number or
as a text, and a pattern formats them as it formats the moment. -/
theorem anchors_agree {s : ℤ} (hlarge : 10 ^ 7 ≤ s.natAbs) (hsmall : s.natAbs < 10 ^ 10) :
    ∃ m : Moment, m.unixMicros = s * 1000000 ∧
      (∀ offset : ℤ, offset.natAbs < 1440 → ∃ shown : Moment, shown.unixMicros = s * 1000000 + offset * 60000000) ∧
      (∀ anchor, Encodes s anchor → ∀ (now : Moment) (context : Context),
        (context.startTimeTest = some anchor ∨ context.startTimeTest = none ∧ context.startTimeScript = some anchor) →
          baseTime now context = .ok m ∧ answer now context "calc" ["0", "seconds"] = .ok (.int s)) ∧
      (∃ back, Anchor.ofJson? (.int s) = some back ∧ Encodes s back) ∧
      (∃ back, Anchor.ofJson? (written s) = some back ∧ Encodes s back) ∧
      (∀ now context pattern,
        answer now context "format" [String.ofList (Text.integer s), pattern] = .ok (formatted m pattern)) := by
  obtain ⟨m, hm⟩ := Moment.exists_unixMicros_iff.mpr
    (by omega : -62135596800000000 ≤ s * 1000000 ∧ s * 1000000 < 253402300800000000)
  refine ⟨m, hm, ?_, ?_, ⟨_, rfl, .seconds⟩, ⟨_, rfl, .secondsText⟩, ?_⟩
  · intro offset hoffset
    exact Moment.exists_unixMicros_iff.mpr (by omega)
  · intro anchor hanchor now context hcontext
    have hbase := baseTime_of_moment (moment_of_encodes hlarge hsmall hm hanchor) now hcontext
    have hclear : ClearOfSecond m.unixMicros := clearOfSecond_of_whole ⟨s, by omega⟩ m.natAbs_unixMicros_lt
    have hexact := m.unixSeconds_eq_iff.mpr hclear
    refine ⟨hbase, ?_⟩
    rw [answer_calc_zero hbase (by rfl) (by rfl), hexact, hm, Int.mul_ediv_cancel _ (by decide)]
  · intro now context pattern
    have hread := Number.read_integer (lt_exactDigits (by omega : s.natAbs < 10 ^ 18)) false
    exact answer_format (by rwa [String.toList_ofList]) (Moment.ofUnix_of_seconds hm hsmall) now context pattern []

theorem anchors_agree_west :
    answer default { startTimeTest := some (.text "1969-09-07T01:13:20-05:00") } "calc" ["0", "seconds"] =
        .ok (.int (-10000000)) ∧
      answer default { startTimeScript := some (.text "-10000000000") } "calc" ["0", "seconds"] =
        .ok (.int (-10000000)) := by
  obtain ⟨m, -, -, hagree, -⟩ := anchors_agree (by decide : 10 ^ 7 ≤ (-10000000 : ℤ).natAbs) (by decide)
  let shown : Moment := ⟨⟨1969, 9, 7, by decide⟩, 4400000000, by decide⟩
  have hshown : Encodes (-10000000) (.text (String.ofList (offsetText shown true 300))) :=
    .isoText shown true 300 (by decide) (by decide)
  have hmillis : Encodes (-10000000) (.text (String.ofList (Text.integer (1000 * -10000000)))) := .millisText
  rw [show String.ofList (offsetText shown true 300) = "1969-09-07T01:13:20-05:00" by decide +kernel] at hshown
  rw [show String.ofList (Text.integer (1000 * -10000000)) = "-10000000000" by decide +kernel] at hmillis
  exact ⟨(hagree _ hshown default _ (.inl rfl)).2, (hagree _ hmillis default _ (.inr ⟨rfl, rfl⟩)).2⟩

end Clock

end Template
