import Template.Proofs.LastPlace
import Template.Proofs.Months

/-!
# `Template.Proofs.UnixTime` — Unix time in double precision

A moment is exact, but its Unix time is a double: seconds are the floor of the double nearest to the quotient, and
milliseconds the floor of a thousand times that double, which is rounded a second time. The floor is right if rounding
does not cross a whole number.

* Seconds are wrong exactly when the next second is not more than half a last place away (`ClearOfSecond`), and then it is
  that second which is shown. It takes 2 ^ 34 seconds before a last place is so large.
* A whole number of milliseconds is not a double in general. Between 1000 and 1024 times a power of two a thousand times
  the double may be rounded to the number below (`Slips`), at about a quarter of these numbers; everywhere else the second
  rounding takes back the first.

## Contents
- `ClearOfSecond`, `Moment.unixSeconds_eq_iff` — seconds.
- `Slips`, `Moment.unixMillis_eq_iff`, `Moment.unixMillis_of_between`, `Moment.unixMillis_bounds` — milliseconds.
-/

namespace Template

open Calendar Number

/-! ## Seconds -/

/-- The next second is more than half a last place away from the moment `u` microseconds after the start of 1970. -/
def ClearOfSecond (u : ℤ) : Prop :=
  ∀ e, LastPlace u 1000000 e → 500000 < (1000000 - u % 1000000) * 2 ^ e

/-- A double in last places is rounded down to the whole number that it lies behind. -/
theorem ediv_eq_iff_bounds {s n step : ℤ} (h : 0 < step) : s / step = n ↔ n * step ≤ s ∧ s < n * step + step := by
  rw [← Int.le_ediv_iff_mul_le h, show n * step + step = (n + 1) * step by ring, ← Int.ediv_lt_iff_lt_mul h]
  omega

/-- The last places of the doubles next to Unix times are small. -/
theorem LastPlace.exists_step {num : ℤ} {den e : ℕ} (h : LastPlace num den e) {k : ℕ}
    (hsmall : num.natAbs * 2 ^ k < 2 ^ 52 * den) : ∃ step : ℤ, 0 < step ∧ (2 : ℤ) ^ e = 2 ^ (k + 1) * step := by
  have hlt := h.lt_of_small hsmall
  refine ⟨2 ^ (e - (k + 1)), pow_pos two_pos _, ?_⟩
  rw [← pow_add]
  congr 1
  omega

/-- A number of steps in whole units and the rest of a unit. -/
theorem exists_split (u : ℤ) {unit step : ℤ} (hunit : 0 < unit) (hstep : 0 < step) :
    ∃ whole rest, u / unit * step = whole ∧ u % unit * step = rest ∧ u * step = unit * whole + rest ∧
      0 ≤ rest ∧ rest ≤ unit * step - step := by
  refine ⟨_, _, rfl, rfl, ?_, mul_nonneg (Int.emod_nonneg u hunit.ne') hstep.le, ?_⟩
  · conv_lhs => rw [← Int.mul_ediv_add_emod u unit]
    ring
  · have hle : u % unit ≤ unit - 1 := Int.le_sub_one_of_lt (Int.emod_lt_of_pos u hunit)
    have hscaled := mul_le_mul_of_nonneg_right hle hstep.le
    rwa [sub_mul, one_mul] at hscaled

/-- Rounded to last places, a number of microseconds keeps its second unless the next one is too near, and then it gets
to that one. -/
theorem nearestInt_ediv {u step : ℤ} (hstep : 0 < step) :
    (nearestInt (u * (2 ^ 15 * step)) 1000000 / (2 ^ 15 * step) = u / 1000000 ↔
        500000 < (1000000 - u % 1000000) * (2 ^ 15 * step)) ∧
      (nearestInt (u * (2 ^ 15 * step)) 1000000 / (2 ^ 15 * step) = u / 1000000 ∨
        nearestInt (u * (2 ^ 15 * step)) 1000000 / (2 ^ 15 * step) = u / 1000000 + 1) := by
  obtain ⟨hlow, hhigh, -⟩ := nearestInt_near (u * (2 ^ 15 * step)) (by decide : 0 < 1000000)
  obtain ⟨whole, rest, hwhole, hrest, hsplit, hpos, hlt⟩ := exists_split u (by decide : (0 : ℤ) < 1000000) hstep
  have hscaled : u * (2 ^ 15 * step) = 2 ^ 15 * (1000000 * whole + rest) := by rw [← hsplit, mul_left_comm]
  have hfloor : u / 1000000 * (2 ^ 15 * step) = 2 ^ 15 * whole := by rw [← hwhole, mul_left_comm]
  have hnext : (u / 1000000 + 1) * (2 ^ 15 * step) = 2 ^ 15 * whole + 2 ^ 15 * step := by rw [add_mul, hfloor, one_mul]
  have hgap : (1000000 - u % 1000000) * (2 ^ 15 * step) = 2 ^ 15 * (1000000 * step - rest) := by
    rw [← hrest, ← sub_mul, mul_left_comm]
  rw [ediv_eq_iff_bounds (by omega), ediv_eq_iff_bounds (by omega), hfloor, hnext, hgap]
  rw [hscaled] at hlow hhigh ⊢
  omega

namespace Moment

/-- A moment is less than 2 ^ 38 seconds away from the start of 1970. -/
theorem natAbs_unixMicros_lt (m : Moment) : m.unixMicros.natAbs < 2 ^ 38 * 1000000 := by
  have := exists_unixMicros_iff.mp ⟨m, rfl⟩
  omega

theorem exists_lastPlace (m : Moment) (h : m.unixMicros ≠ 0) : ∃ e, LastPlace m.unixMicros 1000000 e := by
  have hlarge := m.natAbs_unixMicros_lt
  have hfine : 2 ^ 52 * 1000000 ≤ m.unixMicros.natAbs * 2 ^ 72 := by omega
  exact Number.exists_lastPlace (by decide) (by decide) hfine (by omega)

/-- There are at least fifteen bits behind the point. -/
theorem exists_step (m : Moment) {e : ℕ} (h : LastPlace m.unixMicros 1000000 e) :
    ∃ step : ℤ, 0 < step ∧ (2 : ℤ) ^ e = 2 ^ 15 * step := by
  have hlarge := m.natAbs_unixMicros_lt
  exact LastPlace.exists_step h (by omega : m.unixMicros.natAbs * 2 ^ 14 < _)

theorem units?_timestamp (m : Moment) {e : ℕ} (h : LastPlace m.unixMicros 1000000 e) :
    m.timestamp.units? = some (nearestInt (m.unixMicros * 2 ^ e) 1000000 * 2 ^ (1074 - e)) := by
  obtain ⟨negative, x, hx, hunits⟩ := Binary64.ofRatio?_lastPlace h
  rw [timestamp, hx]
  exact hunits

theorem timestamp_zero (m : Moment) (h : m.unixMicros = 0) : m.timestamp = .finite false .zero := by
  rw [timestamp, h, Binary64.ofRatio?_zero (by decide)]
  rfl

/-- The double of a moment. -/
theorem ofRatio?_unixMicros (m : Moment) : Binary64.ofRatio? m.unixMicros 1000000 = some m.timestamp := by
  by_cases hzero : m.unixMicros = 0
  · rw [m.timestamp_zero hzero, hzero, Binary64.ofRatio?_zero (by decide)]
  · obtain ⟨e, he⟩ := m.exists_lastPlace hzero
    obtain ⟨negative, x, hx, -⟩ := Binary64.ofRatio?_lastPlace he
    rw [timestamp, hx]
    rfl

/-- The double of a whole number of milliseconds. -/
theorem ofRatio?_millis {m : Moment} {n : ℤ} (h : m.unixMicros = 1000 * n) :
    Binary64.ofRatio? n 1000 = some m.timestamp := by
  rw [← m.ofRatio?_unixMicros, h]
  exact Binary64.ofRatio?_congr (by decide) (by decide) (by push_cast; ring)

theorem unixSeconds_eq (m : Moment) {e : ℕ} (h : LastPlace m.unixMicros 1000000 e) :
    m.unixSeconds = nearestInt (m.unixMicros * 2 ^ e) 1000000 / 2 ^ e := by
  rw [unixSeconds, Binary64.floor?_of_units h.le (m.units?_timestamp h)]
  rfl

theorem unixSeconds_zero (m : Moment) (h : m.unixMicros = 0) : m.unixSeconds = 0 := by
  rw [unixSeconds, m.timestamp_zero h, Binary64.floor?, Binary64.units?_zero, Option.map_some, Int.zero_fdiv]
  rfl

/-- **The seconds of a moment are right if and only if it is clear of the next second.** -/
theorem unixSeconds_eq_iff (m : Moment) :
    m.unixSeconds = m.unixMicros / 1000000 ↔ ClearOfSecond m.unixMicros := by
  constructor
  · intro hexact e he
    obtain ⟨step, hstep, hpow⟩ := m.exists_step he
    rw [m.unixSeconds_eq he, hpow] at hexact
    rw [hpow]
    exact (nearestInt_ediv hstep).1.mp hexact
  · intro hclear
    by_cases hzero : m.unixMicros = 0
    · rw [m.unixSeconds_zero hzero, hzero]
      rfl
    · obtain ⟨e, he⟩ := m.exists_lastPlace hzero
      obtain ⟨step, hstep, hpow⟩ := m.exists_step he
      have hclear := hclear e he
      rw [hpow] at hclear
      rw [m.unixSeconds_eq he, hpow]
      exact (nearestInt_ediv hstep).1.mpr hclear

/-- Seconds that are wrong are those of the next second. -/
theorem unixSeconds_bounds (m : Moment) :
    m.unixSeconds = m.unixMicros / 1000000 ∨ m.unixSeconds = m.unixMicros / 1000000 + 1 := by
  by_cases hzero : m.unixMicros = 0
  · rw [m.unixSeconds_zero hzero, hzero]
    exact .inl rfl
  · obtain ⟨e, he⟩ := m.exists_lastPlace hzero
    obtain ⟨step, hstep, hpow⟩ := m.exists_step he
    rw [m.unixSeconds_eq he, hpow]
    exact (nearestInt_ediv hstep).2

end Moment

/-- Up to 2 ^ 34 seconds a last place is less than two microseconds. -/
theorem clearOfSecond_of_small {u : ℤ} (h : u.natAbs < 2 ^ 34 * 1000000) : ClearOfSecond u := by
  intro e he
  obtain ⟨step, hstep, hpow⟩ := LastPlace.exists_step he (by omega : u.natAbs * 2 ^ 18 < _)
  have hnext : 1 * step ≤ (1000000 - u % 1000000) * step := mul_le_mul_of_nonneg_right (by omega) hstep.le
  rw [hpow, show (1000000 - u % 1000000) * (2 ^ (18 + 1) * step) = 2 ^ 19 * ((1000000 - u % 1000000) * step) by ring]
  omega

theorem clearOfSecond_of_whole {u : ℤ} (h : 1000000 ∣ u) (hsmall : u.natAbs < 2 ^ 38 * 1000000) : ClearOfSecond u := by
  intro e he
  obtain ⟨step, hstep, hpow⟩ := LastPlace.exists_step he (by omega : u.natAbs * 2 ^ 14 < _)
  rw [hpow, Int.emod_eq_zero_of_dvd h]
  omega

/-! ## Milliseconds -/

/-- The whole number of milliseconds `n` is not got back. Its double is too small by more than 256 thousandths of a last
place; the product with a thousand has 62 bits and is rounded to a multiple of 2 ^ 9, so that it comes out below `n`. -/
def Slips (n : ℤ) : Prop :=
  ∃ e, LastPlace n 1000 e ∧ n.natAbs * 2 ^ e < 2 ^ 62 ∧ 256 < n * 2 ^ e % 1000 ∧ n * 2 ^ e % 1000 < 500

/-- Whole seconds do not slip. -/
theorem not_slips_of_whole {n : ℤ} (h : 1000 ∣ n) : ¬Slips n := by
  rintro ⟨e, -, -, hlow, -⟩
  rw [Int.emod_eq_zero_of_dvd (h.mul_right _)] at hlow
  omega

/-- A thousand times a double of `s` last places, rounded and then rounded down. Of the 63 bits of the product nine or ten
are cut off; `step` is what is left of the places behind the point. -/
def thousandfold (s step : ℤ) : ℤ :=
  if s.natAbs * 1000 < 2 ^ 62 then nearestInt (s * 1000) (2 ^ 9) / (2 ^ 6 * step)
  else nearestInt (s * 1000) (2 ^ 10) / (2 ^ 5 * step)

namespace Number.Binary64

/-- A thousand times a double, when the number of bits that are cut off is known. -/
theorem floor?_scale? {x : Binary64} {s : ℤ} {e cut : ℕ} (he : e ≤ 1074) (hcut : cut ≤ e)
    (h : x.units? = some (s * 2 ^ (1074 - e))) (hlow : 2 ^ (52 + cut) ≤ s.natAbs * 1000)
    (hhigh : s.natAbs * 1000 < 2 ^ (53 + cut)) :
    (x.scale? 1000).bind (·.floor?) = some (nearestInt (s * 1000) (2 ^ cut) / 2 ^ (e - cut)) := by
  have hstep : 0 < 2 ^ (e - cut) := Nat.pow_pos (by decide)
  have hsplit : 2 ^ e = 2 ^ cut * 2 ^ (e - cut) := by rw [← Nat.pow_add, Nat.add_sub_cancel' hcut]
  have hplace : LastPlace (s * (1000 : ℕ)) (2 ^ e) (e - cut) := by
    refine ⟨Nat.pow_pos (by decide), by omega, ?_, ?_⟩
    · rw [hsplit, ← Nat.mul_assoc, ← Nat.pow_add, Int.natAbs_mul]
      exact Nat.mul_le_mul_right _ hlow
    · rw [hsplit, ← Nat.mul_assoc, ← Nat.pow_add, Int.natAbs_mul]
      exact Nat.mul_lt_mul_of_pos_right hhigh hstep
  obtain ⟨negative, y, hy, hunits⟩ := ofRatio?_lastPlace hplace
  have hround := nearestInt_mul_right (s * (1000 : ℕ)) (2 ^ cut) hstep
  rw [← hsplit, Nat.cast_pow] at hround
  rw [scale?_of_units he h, hy, Option.bind_some, floor?_of_units (by omega) hunits]
  exact congrArg (fun n => some (n / 2 ^ (e - cut))) hround

/-- **A thousand times a double, rounded down**, by its last places. -/
theorem floor?_thousand {x : Binary64} {s step : ℤ} {e : ℕ} (he : e ≤ 1074) (hpow : (2 : ℤ) ^ e = 2 ^ 15 * step)
    (h : x.units? = some (s * 2 ^ (1074 - e))) (hlow : 2 ^ 52 ≤ s.natAbs) (hhigh : s.natAbs ≤ 2 ^ 53) :
    (x.scale? 1000).bind (·.floor?) = some (thousandfold s step) := by
  have hfine : 15 ≤ e := by
    by_contra hcoarse
    have := Nat.pow_le_pow_right (by decide : 0 < 2) (by omega : e ≤ 14)
    have hnat : ((2 ^ e : ℕ) : ℤ) = 2 ^ 15 * step := by rw [← hpow]; norm_cast
    have := Nat.pow_pos (by decide : 0 < 2) (n := e)
    omega
  have hsteps : ∀ cut, cut ≤ 15 → (2 : ℤ) ^ (e - cut) = 2 ^ (15 - cut) * step := by
    intro cut hcut
    have hsplit : (2 : ℤ) ^ cut * 2 ^ (e - cut) = 2 ^ cut * (2 ^ (15 - cut) * step) := by
      rw [← mul_assoc, ← pow_add, ← pow_add, Nat.add_sub_cancel' hcut, Nat.add_sub_cancel' (by omega), hpow]
    exact mul_left_cancel₀ (pow_ne_zero cut two_ne_zero) hsplit
  unfold thousandfold
  split
  · rw [floor?_scale? he (by omega : 9 ≤ e) h (by omega) (by omega), hsteps 9 (by decide)]
  · rw [floor?_scale? he (by omega : 10 ≤ e) h (by omega) (by omega), hsteps 10 (by decide)]

end Number.Binary64

/-- A whole number of milliseconds is got back unless it slips, and then the number below it is. -/
theorem thousandfold_whole {n step : ℤ} (hstep : 0 < step) :
    (thousandfold (nearestInt (n * (2 ^ 15 * step)) 1000) step = n ↔
      ¬((n * (2 ^ 15 * step)).natAbs < 2 ^ 62 ∧ 256 < n * (2 ^ 15 * step) % 1000 ∧ n * (2 ^ 15 * step) % 1000 < 500)) := by
  obtain ⟨hlow, hhigh, -⟩ := nearestInt_near (n * (2 ^ 15 * step)) (by decide : 0 < 1000)
  have hscaled : n * (2 ^ 15 * step) = 2 ^ 15 * (n * step) := mul_left_comm _ _ _
  rw [hscaled] at hlow hhigh ⊢
  generalize nearestInt (2 ^ 15 * (n * step)) 1000 = s at hlow hhigh ⊢
  have hs : s = 2 ^ 15 * (n * step) / 1000 ∨ s = 2 ^ 15 * (n * step) / 1000 + 1 := by omega
  -- what the first rounding has taken off or added is cut off with the last bits of the product, except for too much of it
  unfold thousandfold
  split
  · obtain ⟨hlow', hhigh', htie⟩ := nearestInt_near (s * 1000) (by decide : 0 < 2 ^ 9)
    have hfloor : n * (2 ^ 6 * step) = 2 ^ 6 * (n * step) := mul_left_comm _ _ _
    rw [ediv_eq_iff_bounds (by omega), hfloor]
    generalize nearestInt (s * 1000) (2 ^ 9) = t at hlow' hhigh' htie ⊢
    generalize n * step = whole at *
    rcases hs with hs | hs <;> omega
  · obtain ⟨hlow', hhigh', htie⟩ := nearestInt_near (s * 1000) (by decide : 0 < 2 ^ 10)
    have hfloor : n * (2 ^ 5 * step) = 2 ^ 5 * (n * step) := mul_left_comm _ _ _
    rw [ediv_eq_iff_bounds (by omega), hfloor]
    generalize nearestInt (s * 1000) (2 ^ 10) = t at hlow' hhigh' htie ⊢
    generalize n * step = whole at *
    rcases hs with hs | hs <;> omega

/-- How far two roundings move a number of microseconds: by a half of what a million last places are, and by a half of a
thousand times nine or ten bits. -/
theorem thousandfold_bounds {u step : ℤ} (hstep : 0 < step) :
    u / 1000 - 1 ≤ thousandfold (nearestInt (u * (2 ^ 15 * step)) 1000000) step ∧
      thousandfold (nearestInt (u * (2 ^ 15 * step)) 1000000) step < u / 1000 + 2 := by
  obtain ⟨hlow, hhigh, -⟩ := nearestInt_near (u * (2 ^ 15 * step)) (by decide : 0 < 1000000)
  obtain ⟨whole, rest, hwhole, hrest, hsplit, hpos, hlt⟩ := exists_split u (by decide : (0 : ℤ) < 1000) hstep
  have hscaled : u * (2 ^ 15 * step) = 2 ^ 15 * (1000 * whole + rest) := by rw [← hsplit, mul_left_comm]
  rw [hscaled] at hlow hhigh ⊢
  generalize nearestInt (2 ^ 15 * (1000 * whole + rest)) 1000000 = s at hlow hhigh ⊢
  have hmultiple : ∀ k c : ℤ, (u / 1000 + k) * (c * step) = c * (whole + k * step) := by
    intro k c
    rw [← hwhole]
    ring
  unfold thousandfold
  split
  · obtain ⟨hlow', hhigh', -⟩ := nearestInt_near (s * 1000) (by decide : 0 < 2 ^ 9)
    rw [Int.le_ediv_iff_mul_le (by omega), Int.ediv_lt_iff_lt_mul (by omega), sub_eq_add_neg, hmultiple, hmultiple]
    omega
  · obtain ⟨hlow', hhigh', -⟩ := nearestInt_near (s * 1000) (by decide : 0 < 2 ^ 10)
    rw [Int.le_ediv_iff_mul_le (by omega), Int.ediv_lt_iff_lt_mul (by omega), sub_eq_add_neg, hmultiple, hmultiple]
    omega

/-- With twenty bits behind the point a moment between two milliseconds stays between them: it is a microsecond away from
both, and the roundings move it by less. -/
theorem thousandfold_between {u step : ℤ} (hstep : 0 < step) (hrest : ¬1000 ∣ u) :
    thousandfold (nearestInt (u * (2 ^ 15 * (2 ^ 5 * step))) 1000000) (2 ^ 5 * step) = u / 1000 := by
  obtain ⟨hlow, hhigh, -⟩ := nearestInt_near (u * (2 ^ 15 * (2 ^ 5 * step))) (by decide : 0 < 1000000)
  obtain ⟨whole, rest, hwhole, hrest', hsplit, hpos, hlt⟩ := exists_split u (by decide : (0 : ℤ) < 1000) hstep
  have hbehind : 1 * step ≤ u % 1000 * step := mul_le_mul_of_nonneg_right (by omega) hstep.le
  rw [hrest', one_mul] at hbehind
  have hscaled : u * (2 ^ 15 * (2 ^ 5 * step)) = 2 ^ 20 * (1000 * whole + rest) := by
    rw [← hsplit]
    ring
  rw [hscaled] at hlow hhigh ⊢
  generalize nearestInt (2 ^ 20 * (1000 * whole + rest)) 1000000 = s at hlow hhigh ⊢
  have hmultiple : ∀ c : ℤ, u / 1000 * (c * (2 ^ 5 * step)) = c * (2 ^ 5 * whole) := by
    intro c
    rw [← hwhole]
    ring
  unfold thousandfold
  split
  · obtain ⟨hlow', hhigh', -⟩ := nearestInt_near (s * 1000) (by decide : 0 < 2 ^ 9)
    rw [ediv_eq_iff_bounds (by omega), hmultiple]
    omega
  · obtain ⟨hlow', hhigh', -⟩ := nearestInt_near (s * 1000) (by decide : 0 < 2 ^ 10)
    rw [ediv_eq_iff_bounds (by omega), hmultiple]
    omega

namespace Moment

theorem unixMillis_eq (m : Moment) {e : ℕ} {step : ℤ} (h : LastPlace m.unixMicros 1000000 e)
    (hpow : (2 : ℤ) ^ e = 2 ^ 15 * step) :
    m.unixMillis = thousandfold (nearestInt (m.unixMicros * 2 ^ e) 1000000) step := by
  obtain ⟨hlow, hhigh⟩ := h.nearestInt_bounds
  rw [unixMillis, Binary64.floor?_thousand h.le hpow (m.units?_timestamp h) hlow hhigh]
  rfl

theorem unixMillis_of_timestamp (m : Moment) (h : m.timestamp = .finite false .zero) : m.unixMillis = 0 := by
  rw [unixMillis, h, Binary64.scale?, Binary64.units?_zero, Option.bind_some, Nat.cast_ofNat, zero_mul,
    Binary64.ofRatio?_zero unitsPerOne_pos, Option.bind_some, Binary64.floor?, Binary64.units?_zero, Option.map_some,
    Int.zero_fdiv]
  rfl

/-- **A whole number of milliseconds is got back if and only if it does not slip.** -/
theorem unixMillis_eq_iff {m : Moment} {n : ℤ} (hdouble : Binary64.ofRatio? n 1000 = some m.timestamp)
    (hsmall : n.natAbs < 2 ^ 38 * 1000) : m.unixMillis = n ↔ ¬Slips n := by
  have hplaces : ∀ e, LastPlace n 1000 e → (m.unixMillis = n ↔
      ¬(n.natAbs * 2 ^ e < 2 ^ 62 ∧ 256 < n * 2 ^ e % 1000 ∧ n * 2 ^ e % 1000 < 500)) := by
    intro e he
    obtain ⟨step, hstep, hpow⟩ := LastPlace.exists_step he (by omega : n.natAbs * 2 ^ 14 < _)
    obtain ⟨negative, x, hx, hunits⟩ := Binary64.ofRatio?_lastPlace he
    rw [hx, Option.some_inj] at hdouble
    have hwhole := thousandfold_whole (n := n) hstep
    rw [← hpow, Int.natAbs_mul, Int.natAbs_pow] at hwhole
    rw [unixMillis, ← hdouble, Binary64.floor?_thousand he.le hpow hunits he.nearestInt_bounds.1 he.nearestInt_bounds.2]
    exact hwhole
  constructor
  · rintro hexact ⟨e, he, hslips⟩
    exact (hplaces e he).mp hexact hslips
  · intro hkeeps
    by_cases hzero : n = 0
    · rw [hzero, Binary64.ofRatio?_zero (by decide), Option.some_inj] at hdouble
      rw [hzero, m.unixMillis_of_timestamp hdouble.symm]
    · have hfine : 2 ^ 52 * 1000 ≤ n.natAbs * 2 ^ 62 := by omega
      obtain ⟨e, he⟩ := Number.exists_lastPlace (by decide) (by decide) hfine (by omega)
      exact (hplaces e he).mpr fun hslips => hkeeps ⟨e, he, hslips⟩

/-- **Between two whole numbers of milliseconds the one below is right**, up to 2 ^ 33 seconds. -/
theorem unixMillis_of_between (m : Moment) (hrest : ¬1000 ∣ m.unixMicros)
    (hsmall : m.unixMicros.natAbs < 2 ^ 33 * 1000000) :
    m.unixMillis = m.unixMicros / 1000 := by
  obtain ⟨e, he⟩ := m.exists_lastPlace fun hzero => hrest (hzero ▸ dvd_zero _)
  obtain ⟨step, hstep, hpow⟩ := LastPlace.exists_step he (by omega : m.unixMicros.natAbs * 2 ^ 19 < _)
  have hpow' : (2 : ℤ) ^ e = 2 ^ 15 * (2 ^ 5 * step) := by
    rw [hpow]
    ring
  rw [m.unixMillis_eq he hpow', hpow', thousandfold_between hstep hrest]

/-- Milliseconds are wrong by one at most. -/
theorem unixMillis_bounds (m : Moment) :
    m.unixMicros / 1000 - 1 ≤ m.unixMillis ∧ m.unixMillis < m.unixMicros / 1000 + 2 := by
  by_cases hzero : m.unixMicros = 0
  · rw [m.unixMillis_of_timestamp (m.timestamp_zero hzero), hzero]
    decide
  · obtain ⟨e, he⟩ := m.exists_lastPlace hzero
    obtain ⟨step, hstep, hpow⟩ := m.exists_step he
    rw [m.unixMillis_eq he hpow, hpow]
    exact thousandfold_bounds hstep

end Moment

end Template
