import Template.Clock
import Template.Proofs.FromUnix
import Template.Proofs.JsonText
import Template.Proofs.PlainNumber

/-!
# `Template.Proofs.ShownTime` — Unix times in the results of the clock

The clock gives Unix time in three places: a pattern shows seconds (`X`) and milliseconds (`x`), and a calculation in a
unit gives seconds. All three take the double of the moment, so that they are right where `Moment.unixSeconds` and
`Moment.unixMillis` are. The parts of a pattern that show a single second or millisecond take them from the moment itself
and are always right.

## Contents
- `Number.read_integer` — integers in texts.
- `Clock.shift_zero` — a base time that is not shifted.
- `Clock.unixTime_exact_iff` — when the Unix time that is shown is exact.
-/

namespace Template

open Calendar Number

/-- **An integer is read as what it is**, if it does not have too many digits. -/
theorem Number.read_integer {n : ℤ} (h : n.natAbs < 10 ^ exactDigits) (blankIsZero : Bool) :
    Number.read (Text.integer n) blankIsZero = .ok (.integer n) := by
  obtain ⟨s, htext, hmeans, hlength⟩ := exists_spelling_integer h
  rw [← htext]
  exact (s.read_text (fun _ => hlength) blankIsZero).mpr hmeans

namespace Clock

/-! ## No shift -/

/-- A moment that is shifted by no unit at all stays what it is. -/
theorem shift_zero (unit : TimeUnit) (m : Moment) : shift unit m (.integer 0) = .ok m := by
  unfold shift
  cases unit.length with
  | micros count => simp [durationMicros?, inRange]
  | months count => simp [whole?, inRange, Moment.addMonths?, Date.addMonths?_zero]

theorem answer_calc_zero {now m : Moment} {context : Context} {offset form : String} {unit : TimeUnit}
    (hbase : baseTime now context = .ok m) (hoffset : Number.read offset.toList false = .ok (.integer 0))
    (hunit : TimeUnit.ofWord? form = some unit) (rest : List String) :
    answer now context "calc" (offset :: form :: rest) = .ok (.int m.unixSeconds) := by
  show shifted now context offset form = _
  rw [shifted, hoffset]
  dsimp only
  rw [hbase, hunit]
  show (shift unit m (.integer 0)).bind _ = _
  rw [shift_zero]
  rfl

/-! ## Patterns -/

/-- An integer as a text. -/
def written (n : ℤ) : Json := .string (String.ofList (Text.integer n))

theorem written_inj {a b : ℤ} : written a = written b ↔ a = b := by
  constructor
  · intro h
    rw [written, written, Json.string.injEq, String.ofList_inj] at h
    exact Json.integer_injective h
  · exact congrArg written

/-- A pattern of one character that is not a quote. -/
theorem formatted_single (m : Moment) {c : Char} (h : c ≠ '\x27') {text : List Char}
    (hpart : Pattern.part? c 1 m = some text) : formatted m (String.ofList [c]) = .string (String.ofList text) := by
  simp [formatted, Pattern.format, Pattern.pieces, Pattern.Piece.text, h, hpart]

theorem formatted_seconds (m : Moment) : formatted m "X" = written m.unixSeconds :=
  formatted_single m (by decide) rfl

theorem formatted_millis (m : Moment) : formatted m "x" = written m.unixMillis :=
  formatted_single m (by decide) rfl

theorem answer_format {time : String} {v : ℤ} {m : Moment} (hread : Number.read time.toList false = .ok (.integer v))
    (hm : Moment.ofUnix (.integer v) = .ok m) (now : Moment) (context : Context) (pattern : String) (rest : List String) :
    answer now context "format" (time :: pattern :: rest) = .ok (formatted m pattern) := by
  show format time pattern = _
  rw [format, hread]
  dsimp only
  rw [hm]

/-! ## Exact Unix times -/

theorem lt_exactDigits {n : ℕ} (h : n < 10 ^ 18) : n < 10 ^ exactDigits :=
  Nat.lt_of_lt_of_le h (Nat.pow_le_pow_right (by decide) (by decide))

/-- Seconds are shown as they are given. -/
theorem answer_format_seconds (now : Moment) (context : Context) {v : ℤ} (h : v.natAbs < 10 ^ 10) :
    answer now context "format" [String.ofList (Text.integer v), "X"] = .ok (written v) := by
  obtain ⟨m, hm, hmicros⟩ := Moment.ofUnix_seconds h
  have hread := Number.read_integer (lt_exactDigits (by omega : v.natAbs < 10 ^ 18)) false
  have hclear : ClearOfSecond m.unixMicros := clearOfSecond_of_whole ⟨v, by omega⟩ m.natAbs_unixMicros_lt
  have hexact := m.unixSeconds_eq_iff.mpr hclear
  rw [answer_format (by rwa [String.toList_ofList]) hm, formatted_seconds, hexact, hmicros,
    Int.mul_ediv_cancel _ (by decide)]

/-- Milliseconds are shown as they are given, unless they slip. -/
theorem answer_format_millis (now : Moment) (context : Context) {v : ℤ} (hlarge : 10 ^ 10 ≤ v.natAbs)
    (hrange : ∃ m : Moment, m.unixMicros = 1000 * v) :
    answer now context "format" [String.ofList (Text.integer v), "x"] = .ok (written v) ↔ ¬Slips v := by
  obtain ⟨m, hm, hdouble, -⟩ := Moment.ofUnix_millis hlarge hrange
  have hbounds := Moment.exists_unixMicros_iff.mp hrange
  have hread := Number.read_integer (lt_exactDigits (by omega : v.natAbs < 10 ^ 18)) false
  rw [answer_format (by rwa [String.toList_ofList]) hm, formatted_millis, Except.ok.injEq, written_inj]
  exact Moment.unixMillis_eq_iff hdouble (by omega)

/-- **Exact Unix times.** For every moment the seconds that are shown and calculated are exact if and only if the moment is
clear of the next second, and otherwise they are those of the next second; up to 2 ^ 34 seconds from 1970 every moment is
clear. Milliseconds that are whole are exact if and only if they do not slip, and all others are up to 2 ^ 33 seconds; they
are never wrong by more than one. A Unix time in seconds is always shown as it was given, and one in milliseconds unless it
slips. -/
theorem unixTime_exact_iff (m : Moment) :
    ((formatted m "X" = written (m.unixMicros / 1000000) ↔ ClearOfSecond m.unixMicros) ∧
      (formatted m "X" = written (m.unixMicros / 1000000) ∨ formatted m "X" = written (m.unixMicros / 1000000 + 1)) ∧
      (m.unixMicros.natAbs < 2 ^ 34 * 1000000 → ClearOfSecond m.unixMicros)) ∧
    (∀ now context offset form unit rest, baseTime now context = .ok m →
      Number.read offset.toList false = .ok (.integer 0) → TimeUnit.ofWord? form = some unit →
      (answer now context "calc" (offset :: form :: rest) = .ok (.int (m.unixMicros / 1000000)) ↔
        ClearOfSecond m.unixMicros)) ∧
    ((∀ n, m.unixMicros = 1000 * n → (formatted m "x" = written n ↔ ¬Slips n)) ∧
      (¬1000 ∣ m.unixMicros → m.unixMicros.natAbs < 2 ^ 33 * 1000000 →
        formatted m "x" = written (m.unixMicros / 1000)) ∧
      (∃ n, formatted m "x" = written n ∧ m.unixMicros / 1000 - 1 ≤ n ∧ n ≤ m.unixMicros / 1000 + 1)) ∧
    (∀ now context v, m.unixMicros = 1000 * v → 10 ^ 10 ≤ v.natAbs →
      (answer now context "format" [String.ofList (Text.integer v), "x"] = .ok (written v) ↔ ¬Slips v)) ∧
    (∀ now context (v : ℤ), v.natAbs < 10 ^ 10 →
      answer now context "format" [String.ofList (Text.integer v), "X"] = .ok (written v)) := by
  refine ⟨⟨?_, ?_, clearOfSecond_of_small⟩, ?_, ⟨?_, ?_, ?_⟩, ?_, ?_⟩
  -- the pattern `X`, and the calculation without a shift
  · rw [formatted_seconds, written_inj]
    exact m.unixSeconds_eq_iff
  · rw [formatted_seconds, written_inj, written_inj]
    exact m.unixSeconds_bounds
  · intro now context offset form unit rest hbase hoffset hunit
    rw [answer_calc_zero hbase hoffset hunit, ← m.unixSeconds_eq_iff]
    simp [Json.int]
  -- the pattern `x`, for whole milliseconds, for all others, and at worst
  · intro n hn
    have hsmall := m.natAbs_unixMicros_lt
    rw [formatted_millis, written_inj]
    exact Moment.unixMillis_eq_iff (Moment.ofRatio?_millis hn) (by omega)
  · intro hrest hsmall
    rw [formatted_millis, m.unixMillis_of_between hrest hsmall]
  · have hbounds := m.unixMillis_bounds
    exact ⟨m.unixMillis, formatted_millis m, by omega, by omega⟩
  -- Unix times that are read and shown again
  · intro now context v hv hlarge
    exact answer_format_millis now context hlarge ⟨m, hv⟩
  · intro now context v hv
    exact answer_format_seconds now context hv

theorem unixTime_exact_whole :
    formatted (.noon ⟨2025, 3, 15, by decide⟩) "X" = written 1742040000 ∧
      answer default { startTimeTest := some (.number (.integer 1742040000)) } "calc" ["-0", "Hours"] =
        .ok (.int 1742040000) ∧
      formatted (.noon ⟨2025, 3, 15, by decide⟩) "x" = written 1742040000000 ∧
      answer default {} "format" ["1742040000000", "x"] = .ok (written 1742040000000) ∧
      answer default {} "format" ["-5", "X"] = .ok (written (-5)) := by
  have hmicros : (Moment.noon ⟨2025, 3, 15, by decide⟩).unixMicros = 1742040000000000 := by decide
  have hslips : ¬Slips 1742040000000 := not_slips_of_whole (by decide)
  obtain ⟨⟨hX, -, hclear⟩, hcalc, ⟨hx, -, -⟩, hmillis, hseconds⟩ :=
    unixTime_exact_iff (.noon ⟨2025, 3, 15, by decide⟩)
  have hclear := hclear (by rw [hmicros]; decide)
  have hmillis := (hmillis default {} 1742040000000 (by decide) (by decide)).mpr hslips
  have hseconds := hseconds default {} (-5) (by decide)
  rw [show String.ofList (Text.integer 1742040000000) = "1742040000000" by rfl] at hmillis
  rw [show String.ofList (Text.integer (-5)) = "-5" by rfl] at hseconds
  rw [hmicros] at hX hcalc hx hclear
  refine ⟨hX.mpr hclear, ?_, (hx 1742040000000 (by decide)).mpr hslips, hmillis, hseconds⟩
  exact (hcalc default _ "-0" "Hours" .hours [] (by rfl) (by rfl) (by decide)).mpr hclear

/-- The last microsecond before the year 10000 is shown and calculated as the first second of that year, and a millisecond
of the year 2004 is lost. -/
theorem unixTime_inexact :
    (⟨⟨9999, 12, 31, by decide⟩, 86399999999, by decide⟩ : Moment).unixMicros / 1000000 = 253402300799 ∧
      formatted ⟨⟨9999, 12, 31, by decide⟩, 86399999999, by decide⟩ "X" = written 253402300800 ∧
      answer ⟨⟨9999, 12, 31, by decide⟩, 86399999999, by decide⟩ {} "calc" ["0", "seconds"] =
        .ok (.int 253402300800) ∧
      answer default {} "format" ["1075000000001", "x"] = .ok (written 1075000000000) := by
  have hseconds : (⟨⟨9999, 12, 31, by decide⟩, 86399999999, by decide⟩ : Moment).unixSeconds = 253402300800 := by
    decide +kernel
  have hread : Moment.ofUnix (.integer 1075000000001) = .ok ⟨⟨2004, 1, 25, by decide⟩, 11200001000, by decide⟩ := by
    decide +kernel
  have hmillis : (⟨⟨2004, 1, 25, by decide⟩, 11200001000, by decide⟩ : Moment).unixMillis = 1075000000000 := by
    decide +kernel
  refine ⟨by decide, ?_, ?_, ?_⟩
  · rw [formatted_seconds, hseconds]
  · rw [answer_calc_zero (by rfl) (by rfl) (by rfl), hseconds]
  · rw [answer_format (by rfl) hread, formatted_millis, hmillis]

end Clock

end Template
