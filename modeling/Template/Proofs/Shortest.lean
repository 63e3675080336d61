import Template.Number.Shortest
import Template.Proofs.Numeral

/-!
# `Template.Proofs.Shortest` — the shortest decimal reads back

Rounding depends on nothing but the quotient (`ofRatio?_congr`), and so does reading a decimal: zeros may be
moved from the digits to the exponent (`ofDecimal?_mul_pow`). A quotient that is a double exactly is read as
that double (`ofRatio?_of_units`), and with it the whole binary expansion, behind which the search for the
shortest decimal cannot fall back (`ofDecimal?_shortest`).
-/

namespace Template.Number

theorem roundHalfEven_mul_right (num den : Nat) {c : Nat} (hc : 0 < c) :
    roundHalfEven (num * c) (den * c) = roundHalfEven num den := by
  unfold roundHalfEven
  dsimp only
  rw [Nat.mul_div_mul_right num den hc, Nat.mul_mod_mul_right c num den, ← Nat.mul_assoc]
  simp only [Nat.mul_lt_mul_right hc]

namespace Magnitude

/-! ## The parts with powers -/

theorem lt_two_pow (x : Magnitude) : x.significand < 2 ^ 53 := x.significand_lt

theorem two_pow_le (x : Magnitude) : x.shift = 0 ∨ 2 ^ 52 ≤ x.significand := x.normal

theorem units_eq (x : Magnitude) : x.units = x.significand * 2 ^ x.shift := rfl

theorem ofRatio?_eq (num den : Nat) :
    ofRatio? num den =
      let shift := (num * unitsPerOne / den).log2 - 52
      let significand := roundHalfEven (num * unitsPerOne) (den * 2 ^ shift)
      if significand = 2 ^ 53 then make? (2 ^ 52) (shift + 1) else make? significand shift := rfl

/-! ## Reading depends on the value -/

theorem ofRatio?_mul_right (num den : Nat) {c : Nat} (hc : 0 < c) :
    ofRatio? (num * c) (den * c) = ofRatio? num den := by
  have hscaled : num * c * unitsPerOne = num * unitsPerOne * c := Nat.mul_right_comm _ _ _
  have hden : ∀ shift, den * c * 2 ^ shift = den * 2 ^ shift * c := fun _ => Nat.mul_right_comm _ _ _
  rw [ofRatio?_eq, ofRatio?_eq]
  dsimp only
  rw [hscaled, Nat.mul_div_mul_right _ _ hc, hden, roundHalfEven_mul_right _ _ hc]

/-- **Equal quotients round to the same double.** -/
theorem ofRatio?_congr {num den num' den' : Nat} (hden : 0 < den) (hden' : 0 < den')
    (h : num * den' = num' * den) : ofRatio? num den = ofRatio? num' den' := by
  rw [← ofRatio?_mul_right num den hden', h, Nat.mul_comm den den', ofRatio?_mul_right num' den' hden]

/-- A decimal with its exponent put above or below the line. -/
theorem ofDecimal?_eq {digits : Nat} (h : digits ≠ 0) (exponent : Int) :
    ofDecimal? digits exponent =
      if 310 < exponent + Text.decimalLength digits then none
      else if exponent + Text.decimalLength digits < -330 then some zero
      else ofRatio? (digits * 10 ^ exponent.toNat) (10 ^ (-exponent).toNat) := by
  unfold ofDecimal?
  rw [if_neg h]
  dsimp only
  split
  · rfl
  · split
    · rfl
    · cases exponent with
      | ofNat e =>
        have hneg : (-Int.ofNat e).toNat = 0 := by
          have : Int.ofNat e = (e : Int) := rfl
          omega
        rw [hneg]
        rfl
      | negSucc e =>
        have hpos : (Int.negSucc e).toNat = 0 := rfl
        have hneg : (-Int.negSucc e).toNat = e + 1 := rfl
        rw [hpos, hneg, Nat.pow_zero, Nat.mul_one]
        rfl

/-- **Zeros at the end of the digits are as good as in the exponent.** -/
theorem ofDecimal?_mul_pow (digits k : Nat) (exponent : Int) :
    ofDecimal? (digits * 10 ^ k) exponent = ofDecimal? digits (exponent + k) := by
  by_cases h : digits = 0
  · rw [h, Nat.zero_mul]
    rfl
  · have hpos : 0 < digits := Nat.pos_of_ne_zero h
    have hscaled : digits * 10 ^ k ≠ 0 := Nat.ne_of_gt (Nat.mul_pos hpos (Nat.pow_pos (by decide)))
    have hplaces : exponent + (Text.decimalLength (digits * 10 ^ k) : Int) =
        exponent + k + Text.decimalLength digits := by
      rw [Text.decimalLength_mul_pow hpos]
      omega
    have hratio : ofRatio? (digits * 10 ^ k * 10 ^ exponent.toNat) (10 ^ (-exponent).toNat) =
        ofRatio? (digits * 10 ^ (exponent + k).toNat) (10 ^ (-(exponent + k)).toNat) := by
      refine ofRatio?_congr (Nat.pow_pos (by decide)) (Nat.pow_pos (by decide)) ?_
      -- both sides are the digits with as many zeros
      rw [Nat.mul_assoc, Nat.mul_assoc, ← Nat.pow_add, ← Nat.pow_add, Nat.mul_assoc, ← Nat.pow_add]
      congr 2
      omega
    rw [ofDecimal?_eq hscaled, ofDecimal?_eq h, hplaces, hratio]

/-! ## Exact quotients -/

theorem make?_self (x : Magnitude) : make? x.significand x.shift = some x := by
  unfold make?
  rw [dif_pos ⟨x.significand_lt, x.shift_le, x.normal⟩]

/-- The shift of a number in normal form is what its size says. -/
theorem log2_normal {significand shift : Nat} (hlt : significand < 2 ^ 53)
    (hnormal : shift = 0 ∨ 2 ^ 52 ≤ significand) : (significand * 2 ^ shift).log2 - 52 = shift := by
  rcases hnormal with hzero | hnormal
  · -- below the normal range there are not enough digits for a shift
    rw [hzero, Nat.pow_zero, Nat.mul_one, Nat.sub_eq_zero_iff_le]
    by_cases h : significand = 0
    · rw [h]
      decide
    · have := (Nat.log2_lt h).mpr hlt
      omega
  · have hne : significand ≠ 0 := by
      have : 0 < 2 ^ 52 := Nat.pow_pos (by decide)
      omega
    have hprod : significand * 2 ^ shift ≠ 0 := Nat.mul_ne_zero hne (Nat.ne_of_gt (Nat.pow_pos (by decide)))
    have hlow : 52 + shift ≤ (significand * 2 ^ shift).log2 := by
      rw [Nat.le_log2 hprod, Nat.pow_add]
      exact Nat.mul_le_mul_right _ hnormal
    have hhigh : (significand * 2 ^ shift).log2 < 53 + shift := by
      rw [Nat.log2_lt hprod, Nat.pow_add]
      exact Nat.mul_lt_mul_of_pos_right hlt (Nat.pow_pos (by decide))
    omega

theorem log2_units (x : Magnitude) : x.units.log2 - 52 = x.shift :=
  log2_normal x.lt_two_pow x.two_pow_le

/-- **A quotient that is a double exactly rounds to that double.** -/
theorem ofRatio?_of_units (x : Magnitude) {num den : Nat} (hden : 0 < den)
    (h : num * unitsPerOne = x.units * den) : ofRatio? num den = some x := by
  have hround : roundHalfEven (x.units * den) (den * 2 ^ x.shift) = x.significand := by
    rw [units_eq, Nat.mul_assoc, Nat.mul_comm (2 ^ x.shift) den]
    exact roundHalfEven_mul _ (Nat.mul_pos hden (Nat.pow_pos (by decide)))
  rw [ofRatio?_eq]
  dsimp only
  rw [h, Nat.mul_div_cancel _ hden, log2_units, hround, if_neg (Nat.ne_of_lt x.lt_two_pow), make?_self]

/-! ## The shortest decimal -/

theorem units_pos {x : Magnitude} (h : x.significand ≠ 0) : 0 < x.units :=
  Nat.mul_pos (Nat.pos_of_ne_zero h) (Nat.pow_pos (by decide))

theorem units_lt (x : Magnitude) {n : Nat} (h : x.shift ≤ n) : x.units < 2 ^ 53 * 2 ^ n :=
  Nat.lt_of_lt_of_le (Nat.mul_lt_mul_of_pos_right x.lt_two_pow (Nat.pow_pos (by decide)))
    (Nat.mul_le_mul_left _ (Nat.pow_le_pow_right (by decide) h))

/-- So many fives and twos are tens. -/
theorem mul_five_pow (units n : Nat) : units * 5 ^ n * 2 ^ n = units * 10 ^ n := by
  rw [Nat.mul_assoc, ← Nat.mul_pow]

/-- The digits of the whole binary expansion are neither too many nor too few for a double. -/
theorem decimalLength_exact {x : Magnitude} (h : x.significand ≠ 0) :
    743 < Text.decimalLength x.exact.1 ∧ Text.decimalLength x.exact.1 ≤ 1383 := by
  have hlow : 10 ^ 743 ≤ Nat.pow 5 1074 := by decide +kernel
  have hhigh : 2 ^ 53 * 2 ^ 2045 * Nat.pow 5 1074 ≤ 10 ^ 1383 := by decide +kernel
  have hpos : ∀ n, 0 < Nat.pow 5 n := fun n => Nat.pow_pos (by decide)
  have hfives := hpos 1074
  -- the power itself is too large to be looked at
  unfold exact
  generalize Nat.pow 5 1074 = fives at hlow hhigh hfives ⊢
  constructor
  · rw [← Nat.not_le, Text.decimalLength_le_iff (by decide), Nat.not_lt]
    exact Nat.le_trans hlow (Nat.le_mul_of_pos_left fives (units_pos h))
  · rw [Text.decimalLength_le_iff (by decide)]
    exact Nat.lt_of_lt_of_le (Nat.mul_lt_mul_of_pos_right (x.units_lt x.shift_le) hfives) hhigh

/-- The whole binary expansion reads back. -/
theorem ofDecimal?_exact {x : Magnitude} (h : x.significand ≠ 0) :
    ofDecimal? x.exact.1 x.exact.2 = some x := by
  obtain ⟨hlow, hhigh⟩ := decimalLength_exact h
  have hplace : x.exact.2 = -1074 := rfl
  have hne : x.exact.1 ≠ 0 := by
    intro hzero
    rw [hzero] at hlow
    exact absurd hlow (by decide)
  rw [ofDecimal?_eq hne, hplace, if_neg (by omega), if_neg (by omega)]
  refine ofRatio?_of_units x (Nat.pow_pos (by decide)) ?_
  have hneg : (-1074 : Int).toNat = 0 := rfl
  have hpos : (- -1074 : Int).toNat = 1074 := rfl
  rw [hneg, hpos, Nat.pow_zero, Nat.mul_one]
  unfold exact unitsPerOne
  -- any number of places will do, and for this one the powers would be computed
  generalize (1074 : Nat) = n
  exact mul_five_pow x.units n

theorem nearestOnGrid_reads {x : Magnitude} {place : Int} {decimal : Nat × Int}
    (h : x.nearestOnGrid place = some decimal) : ofDecimal? decimal.1 decimal.2 = some x := by
  have hreads : ∀ {digits : Nat}, x.reads digits place = true → ofDecimal? digits place = some x :=
    fun hr => beq_iff_eq.mp hr
  unfold nearestOnGrid at h
  dsimp only at h
  split at h
  · rename_i hlow
    rw [Bool.and_eq_true] at hlow
    cases h
    exact hreads hlow.1
  · split at h
    · cases h
      exact hreads ‹_›
    · cases h

theorem ofDecimal?_shortestFrom {x : Magnitude} (h : x.significand ≠ 0) (leading : Int)
    (lengths : List Nat) :
    ofDecimal? (x.shortestFrom leading lengths).1 (x.shortestFrom leading lengths).2 = some x := by
  induction lengths with
  | nil => exact ofDecimal?_exact h
  | cons length lengths ih =>
    rw [shortestFrom]
    split
    · exact nearestOnGrid_reads ‹_›
    · exact ih

theorem eq_zero_of_significand {x : Magnitude} (h : x.significand = 0) : x = zero := by
  have hshift : x.shift = 0 := by
    rcases x.normal with hshift | hnormal
    · exact hshift
    · rw [h] at hnormal
      exact absurd hnormal (by decide)
  cases x
  cases h
  cases hshift
  rfl

/-- **The shortest decimal of a double reads back as that double.** -/
theorem ofDecimal?_shortest (x : Magnitude) : ofDecimal? x.shortest.1 x.shortest.2 = some x := by
  unfold shortest
  split
  · rename_i h
    rw [eq_zero_of_significand h]
    rfl
  · exact ofDecimal?_shortestFrom ‹_› _ _

end Magnitude

end Template.Number
