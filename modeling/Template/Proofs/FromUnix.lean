import Template.Proofs.UnixTime

/-!
# `Template.Proofs.FromUnix` — the moment of a Unix time

Seconds that are an integer are exact. Milliseconds are made into seconds in double precision, and the double is rounded to
whole microseconds, its fraction by way of another double. Nothing of this is lost when the time is shown again: with twenty
or more bits behind the point the microseconds are exactly those of the milliseconds, and with fewer the microseconds differ
from the double by less than a half of its last place, so that it is the double nearest to them as well.

## Contents
- `exists_micros_of_fraction`, `microsOfReal_near` — doubles in microseconds.
- `Rounded`, `microsOfReal_bounds`, `ofRatio?_microsOfReal` — milliseconds in microseconds, and the double of these.
- `Moment.ofUnix_seconds`, `Moment.ofUnix_millis` — the moment of a Unix time.
-/

namespace Template

open Calendar Number

/-! ## Doubles in microseconds -/

/-- A fraction in microseconds has at least 33 bits behind the point, and it is off by at most a half of the last. -/
theorem exists_micros_of_fraction {f e : ℕ} (hf : f < 2 ^ e) (he : e ≤ 1000) :
    ∃ y r k, Magnitude.ofRatio? (f * 1000000) (2 ^ e) = some y ∧ 33 ≤ k ∧ k ≤ 1074 ∧ y.units = r * 2 ^ (1074 - k) ∧
      2 * (f * 1000000 * 2 ^ k) ≤ 2 * (2 ^ e * r) + 2 ^ e ∧ 2 * (2 ^ e * r) ≤ 2 * (f * 1000000 * 2 ^ k) + 2 ^ e := by
  have hden : 0 < 2 ^ e := Nat.pow_pos (by decide)
  rcases Nat.eq_zero_or_pos f with rfl | hpos
  · have hsmall : Magnitude.ofRatio? 0 (2 ^ e) = some .zero :=
      Magnitude.ofRatio?_of_small hden (by rw [Nat.zero_mul, Nat.mul_zero]; exact Nat.zero_le _)
    refine ⟨.zero, 0, 33, by rw [Nat.zero_mul, hsmall], Nat.le_refl 33, by decide, ?_, by omega, by omega⟩
    rw [Nat.zero_mul]
    exact Nat.zero_mul _
  · have hfine : 2 ^ 52 * 2 ^ e ≤ ((f * 1000000 : ℕ) : ℤ).natAbs * 2 ^ (52 + e) := by
      rw [Int.natAbs_natCast, ← Nat.pow_add]
      exact Nat.le_mul_of_pos_left _ (by omega)
    obtain ⟨k, hk⟩ := exists_lastPlace hden (by omega) hfine (by omega)
    have hbits := hk.lt_of_small (by omega : ((f * 1000000 : ℕ) : ℤ).natAbs * 2 ^ 32 < _)
    have hlow := hk.low
    have hhigh := hk.high
    rw [Int.natAbs_natCast] at hlow hhigh
    obtain ⟨y, hy, hunits⟩ := Magnitude.ofRatio?_lastPlace hden hk.le hlow hhigh
    obtain ⟨hnear, hnear', -⟩ := roundHalfEven_near (f * 1000000 * 2 ^ k) hden
    exact ⟨y, _, k, hy, hbits, hk.le, hunits, hnear, hnear'⟩

/-- **A double in microseconds** is rounded to the nearest of them, although its fraction is rounded to a double before. -/
theorem microsOfReal_near {x : Magnitude} {s e : ℕ} (he : e ≤ 32) (hunits : x.units = s * 2 ^ (1074 - e)) :
    2 * (2 ^ e * microsOfReal 1000000 x) ≤ 2 * (1000000 * s) + 2 ^ e ∧
      2 * (1000000 * s) ≤ 2 * (2 ^ e * microsOfReal 1000000 x) + 2 ^ e := by
  have hstep : 0 < 2 ^ (1074 - e) := Nat.pow_pos (by decide)
  have hone := unitsPerOne_eq (by omega : e ≤ 1074)
  have hfloor : x.floor = s / 2 ^ e := by rw [Magnitude.floor, hunits, hone, Nat.mul_div_mul_right _ _ hstep]
  have hfraction : x.fraction = s % 2 ^ e * 2 ^ (1074 - e) := by
    rw [Magnitude.fraction, hunits, hone, Nat.mul_mod_mul_right]
  obtain ⟨y, r, k, hy, hbits, hk, hyunits, hnear, hnear'⟩ :=
    exists_micros_of_fraction (Nat.mod_lt s (Nat.pow_pos (by decide))) (by omega : e ≤ 1000)
  have hround : microsOfReal 1000000 x = roundHalfEven (s / 2 ^ e * 1000000 * 2 ^ k + r) (2 ^ k) := by
    have hfine := roundHalfEven_mul_right (s / 2 ^ e * 1000000 * 2 ^ k + r) (2 ^ k)
      (Nat.pow_pos (by decide : 0 < 2) (n := 1074 - k))
    rw [Nat.add_mul, Nat.mul_assoc _ (2 ^ k), ← unitsPerOne_eq hk, ← hyunits] at hfine
    have hdouble : Magnitude.ofRatio? (x.fraction * 1000000) unitsPerOne = some y := by
      rw [hfraction, Nat.mul_right_comm, hone, Magnitude.ofRatio?_mul_right _ _ hstep, hy]
    unfold microsOfReal
    dsimp only
    rw [hdouble, hfloor]
    exact hfine
  obtain ⟨hwhole, hwhole', -⟩ :=
    roundHalfEven_near (s / 2 ^ e * 1000000 * 2 ^ k + r) (Nat.pow_pos (by decide : 0 < 2) (n := k))
  rw [← hround] at hwhole hwhole'
  have hsplit := Nat.div_add_mod s (2 ^ e)
  have hsmall : 2 ^ e < 2 ^ k := Nat.pow_lt_pow_right (by decide) (by omega)
  -- both sides are multiplied by the step of the fraction's double, so that the two roundings are compared in integers
  generalize microsOfReal 1000000 x = micros at *
  generalize s / 2 ^ e = q at *
  generalize s % 2 ^ e = f at *
  generalize 2 ^ e = E at *
  generalize 2 ^ k = K at *
  subst hsplit
  constructor
  · have hscaled : K * (2 * (E * micros)) < K * (2 * (1000000 * (E * q + f)) + E + 1) := by
      have := Nat.mul_le_mul_left E hwhole'
      linarith
    have := Nat.lt_of_mul_lt_mul_left hscaled
    omega
  · have hscaled : K * (2 * (1000000 * (E * q + f))) < K * (2 * (E * micros) + E + 1) := by
      have := Nat.mul_le_mul_left E hwhole
      linarith
    have := Nat.lt_of_mul_lt_mul_left hscaled
    omega

/-! ## Milliseconds in microseconds -/

/-- `a` milliseconds are made into the double of `s` last places of `2 ^ (-e)` seconds, and this into microseconds. Both are
at most a half away from what is rounded. -/
structure Rounded (a : ℕ) (x : Magnitude) (e s : ℕ) : Prop where
  bits : 15 ≤ e ∧ e < 30
  units : x.units = s * 2 ^ (1074 - e)
  low : 2 * (a * 2 ^ e) ≤ 2 * (1000 * s) + 1000
  high : 2 * (1000 * s) ≤ 2 * (a * 2 ^ e) + 1000
  micros_low : 2 * (1000000 * s) ≤ 2 * (2 ^ e * microsOfReal 1000000 x) + 2 ^ e
  micros_high : 2 * (2 ^ e * microsOfReal 1000000 x) ≤ 2 * (1000000 * s) + 2 ^ e

theorem exists_rounded {a : ℕ} {x : Magnitude} (hx : Magnitude.ofRatio? a 1000 = some x) (hlarge : 10 ^ 10 ≤ a)
    (hsmall : a < 2 ^ 38 * 1000) : ∃ e s, LastPlace a 1000 e ∧ Rounded a x e s := by
  have hfine : 2 ^ 52 * 1000 ≤ (a : ℤ).natAbs * 2 ^ 62 := by omega
  obtain ⟨e, he⟩ := Number.exists_lastPlace (by decide) (by decide) hfine (by omega)
  have hcoarse := he.lt_of_large (by omega : 2 ^ 53 * 1000 ≤ (a : ℤ).natAbs * 2 ^ 30)
  have hbits := he.lt_of_small (by omega : (a : ℤ).natAbs * 2 ^ 14 < 2 ^ 52 * 1000)
  obtain ⟨y, hy, hunits⟩ := Magnitude.ofRatio?_lastPlace (by decide) he.le he.low he.high
  rw [Int.natAbs_natCast] at hy hunits
  rw [hx, Option.some_inj] at hy
  subst hy
  obtain ⟨hlow, hhigh, -⟩ := roundHalfEven_near (a * 2 ^ e) (by decide : 0 < 1000)
  obtain ⟨hmicros, hmicros'⟩ := microsOfReal_near (by omega : e ≤ 32) hunits
  exact ⟨e, _, he, ⟨hbits, hcoarse⟩, hunits, hlow, hhigh, hmicros', hmicros⟩

namespace Rounded

variable {a e s : ℕ} {x : Magnitude} (h : Rounded a x e s)
include h

/-- How far the microseconds are off: by a half, and by a half of what a million last places are. -/
theorem micros_near {r : ℕ} (hstep : 1000000 < 2 ^ e * r) :
    2 * microsOfReal 1000000 x < 2000 * a + (r + 1) ∧ 2000 * a < 2 * microsOfReal 1000000 x + (r + 1) := by
  obtain ⟨-, -, hlow, hhigh, hmicros, hmicros'⟩ := h
  constructor
  · have hscaled : 2 ^ e * (2 * microsOfReal 1000000 x) < 2 ^ e * (2000 * a + (r + 1)) := by linarith
    exact Nat.lt_of_mul_lt_mul_left hscaled
  · have hscaled : 2 ^ e * (2000 * a) < 2 ^ e * (2 * microsOfReal 1000000 x + (r + 1)) := by linarith
    exact Nat.lt_of_mul_lt_mul_left hscaled

/-- Whole seconds are whole microseconds. -/
theorem micros_of_whole {q : ℕ} (hq : s = 2 ^ e * q) : microsOfReal 1000000 x = 1000000 * q := by
  obtain ⟨-, -, -, -, hmicros, hmicros'⟩ := h
  have hpos : 0 < 2 ^ e := Nat.pow_pos (by decide)
  rw [hq] at hmicros hmicros'
  have hle : 2 ^ e * (2 * microsOfReal 1000000 x) < 2 ^ e * (2 * (1000000 * q) + 2) := by linarith
  have hge : 2 ^ e * (2 * (1000000 * q)) < 2 ^ e * (2 * microsOfReal 1000000 x + 2) := by linarith
  have hle := Nat.lt_of_mul_lt_mul_left hle
  have hge := Nat.lt_of_mul_lt_mul_left hge
  omega

/-- A whole number of seconds is exact. -/
theorem micros_of_dvd (hdvd : 1000 ∣ a) : microsOfReal 1000000 x = 1000 * a := by
  obtain ⟨q, rfl⟩ := hdvd
  have hlow := h.low
  have hhigh := h.high
  rw [Nat.mul_assoc, Nat.mul_comm q] at hlow hhigh
  rw [h.micros_of_whole (by omega : s = 2 ^ e * q)]
  omega

end Rounded

/-- Milliseconds in microseconds, by way of a double, are off by at most fifteen. -/
theorem microsOfReal_bounds {a : ℕ} {x : Magnitude} (hx : Magnitude.ofRatio? a 1000 = some x) (hlarge : 10 ^ 10 ≤ a)
    (hsmall : a < 2 ^ 38 * 1000) :
    microsOfReal 1000000 x ≤ 1000 * a + 15 ∧ 1000 * a ≤ microsOfReal 1000000 x + 15 ∧
      (1000 ∣ a → microsOfReal 1000000 x = 1000 * a) := by
  obtain ⟨e, s, -, h⟩ := exists_rounded hx hlarge hsmall
  have hstep : 2 ^ 15 ≤ 2 ^ e := Nat.pow_le_pow_right (by decide) h.bits.1
  have hnear := h.micros_near (by omega : 1000000 < 2 ^ e * 31)
  exact ⟨by omega, by omega, h.micros_of_dvd⟩

/-- **Microseconds keep the double**: milliseconds that are made into seconds, and these into whole microseconds, have the
double that they were made into. -/
theorem ofRatio?_microsOfReal {a : ℕ} {x : Magnitude} (hx : Magnitude.ofRatio? a 1000 = some x) (hlarge : 10 ^ 10 ≤ a)
    (hsmall : a < 2 ^ 38 * 1000) : Magnitude.ofRatio? (microsOfReal 1000000 x) 1000000 = some x := by
  obtain ⟨e, s, he, h⟩ := exists_rounded hx hlarge hsmall
  by_cases hwhole : s % 2 ^ e = 0
  · -- the double is a whole number of seconds
    obtain ⟨q, hq⟩ := Nat.dvd_of_mod_eq_zero hwhole
    refine x.ofRatio?_of_units (by decide) ?_
    rw [h.micros_of_whole hq, h.units, hq, unitsPerOne_eq he.le]
    ring
  · by_cases hfine : 20 ≤ e
    · -- the microseconds are those of the milliseconds
      have hstep : 2 ^ 20 ≤ 2 ^ e := Nat.pow_le_pow_right (by decide) hfine
      have hnear := h.micros_near (by omega : 1000000 < 2 ^ e * 1)
      rw [← hx]
      exact Magnitude.ofRatio?_congr (by decide) (by decide) (by omega)
    · -- the double is not at the end of a binade, and the microseconds have the same last place
      have hstep : 2 ^ e ≤ 2 ^ 19 := Nat.pow_le_pow_right (by decide) (by omega)
      have hne : ∀ k, e ≤ k → s ≠ 2 ^ k := by
        rintro k hk rfl
        exact hwhole (Nat.mod_eq_zero_of_dvd (Nat.pow_dvd_pow 2 hk))
      have hfirst := hne 52 (by omega)
      have hlast := hne 53 (by omega)
      obtain ⟨-, hunits, hlow, hhigh, hmicros, hmicros'⟩ := h
      have hsize := he.low
      have hsize' := he.high
      rw [Int.natAbs_natCast] at hsize hsize'
      generalize microsOfReal 1000000 x = micros at *
      rw [Nat.mul_comm (2 ^ e) micros] at hmicros hmicros'
      obtain ⟨y, hy, hyunits⟩ := @Magnitude.ofRatio?_lastPlace micros 1000000 e (by decide) he.le (by omega) (by omega)
      obtain ⟨hround, hround', -⟩ := roundHalfEven_near (micros * 2 ^ e) (by decide : 0 < 1000000)
      have hs : roundHalfEven (micros * 2 ^ e) 1000000 = s := by omega
      rw [hs, ← hunits] at hyunits
      rw [hy, Magnitude.eq_of_units hyunits]

/-! ## The moment of a Unix time -/

namespace Moment

theorem ofMicros_unixMicros (m : Moment) : ofMicros m.unixMicros = .ok m := by
  have := exists_unixMicros_iff.mp ⟨m, rfl⟩
  unfold ofMicros
  dsimp only
  rw [if_neg (by omega), ofUnixMicros?_eq_some_iff.mpr rfl]

/-- **Seconds** are exact. -/
theorem ofUnix_seconds {n : ℤ} (h : n.natAbs < 10 ^ 10) :
    ∃ m : Moment, ofUnix (.integer n) = .ok m ∧ m.unixMicros = n * 1000000 := by
  obtain ⟨m, hm⟩ := exists_unixMicros_iff.mpr
    (by omega : -62135596800000000 ≤ n * 1000000 ∧ n * 1000000 < 253402300800000000)
  refine ⟨m, ?_, hm⟩
  rw [ofUnix, if_pos (by unfold secondsLimit; omega), ← hm, ofMicros_unixMicros]

/-- **Milliseconds keep their double**, and a whole number of seconds is exact. -/
theorem ofUnix_millis {n : ℤ} (hlarge : 10 ^ 10 ≤ n.natAbs) (hrange : ∃ m : Moment, m.unixMicros = 1000 * n) :
    ∃ m : Moment, ofUnix (.integer n) = .ok m ∧ Binary64.ofRatio? n 1000 = some m.timestamp ∧
      (1000 ∣ n → m.unixMicros = 1000 * n) := by
  have hrange := exists_unixMicros_iff.mp hrange
  obtain ⟨x, hx⟩ : ∃ x, Magnitude.ofRatio? n.natAbs 1000 = some x := by
    have hfine : 2 ^ 52 * 1000 ≤ n.natAbs * 2 ^ 62 := by omega
    obtain ⟨e, he⟩ := Number.exists_lastPlace (by decide) (by decide) hfine (by omega)
    obtain ⟨x, hx, -⟩ := Magnitude.ofRatio?_lastPlace (by decide) he.le he.low he.high
    exact ⟨x, hx⟩
  have hratio := ofRatio?_microsOfReal hx hlarge (by omega)
  -- the first moment of all is in whole seconds, so that fifteen microseconds do not lead out of the range
  obtain ⟨hle, hge, hdivide⟩ := microsOfReal_bounds hx hlarge (by omega)
  have hdouble : Binary64.ofRatio? n 1000 = some (.finite (decide (n < 0)) x) := by
    rw [Binary64.ofRatio?, hx, Option.map_some]
  obtain ⟨u, hu, hsign⟩ : ∃ u, ofUnix (.integer n) = ofMicros u ∧
      (n < 0 ∧ u = -(microsOfReal 1000000 x : ℤ) ∨ ¬n < 0 ∧ u = microsOfReal 1000000 x) := by
    have hmillis : ¬n.natAbs < secondsLimit := by
      unfold secondsLimit
      omega
    by_cases hn : n < 0
    · refine ⟨-(microsOfReal 1000000 x : ℤ), ?_, .inl ⟨hn, rfl⟩⟩
      simp only [ofUnix, if_neg hmillis, hdouble, decide_eq_true hn, ofSeconds]
    · refine ⟨microsOfReal 1000000 x, ?_, .inr ⟨hn, rfl⟩⟩
      simp only [ofUnix, if_neg hmillis, hdouble, decide_eq_false hn, ofSeconds]
  generalize microsOfReal 1000000 x = micros at *
  have hnatAbs : u.natAbs = micros := by omega
  obtain ⟨m, hm⟩ := exists_unixMicros_iff.mpr (by omega : -62135596800000000 ≤ u ∧ u < 253402300800000000)
  refine ⟨m, by rw [hu, ← hm, ofMicros_unixMicros], ?_, fun hdvd => ?_⟩
  · have hneg : decide (u < 0) = decide (n < 0) := decide_eq_decide.mpr (by omega)
    rw [hdouble, timestamp, hm, Binary64.ofRatio?, hnatAbs, hratio, Option.map_some, Option.getD_some, hneg]
  · have := hdivide (Int.natAbs_dvd_natAbs.mpr hdvd)
    omega

end Moment

end Template
