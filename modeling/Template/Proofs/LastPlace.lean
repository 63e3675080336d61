import Mathlib.Tactic.Linarith
import Mathlib.Tactic.Ring
import Template.Proofs.Rounding

/-!
# `Template.Proofs.LastPlace` — doubles by their last places

Between two powers of two the doubles are the multiples of one power of two, that of their last place. Once the last
place of a quotient is known, the double nearest to it is a whole number of last places, and it is found by rounding in
the integers (`Binary64.ofRatio?_lastPlace`). What is done to the double afterwards can then be followed in the integers
as well: it is rounded down (`Binary64.floor?_of_units`) or multiplied and rounded again (`Binary64.scale?_of_units`).

## Contents
- `nearestInt`, `nearestInt_near` — the integer nearest to a quotient.
- `LastPlace`, `exists_lastPlace` — where the doubles next to a quotient end.
- `Binary64.ofRatio?_lastPlace` — quotients.
- `Binary64.floor?_of_units`, `Binary64.scale?_of_units` — what becomes of a double.
-/

namespace Template.Number

/-! ## The nearest integer -/

/-- The integer nearest to a quotient of any sign; of two that are as near it is the even one. -/
def nearestInt (num : ℤ) (den : ℕ) : ℤ :=
  signed (decide (num < 0)) (roundHalfEven num.natAbs den : ℤ)

theorem nearestInt_of_neg {num : ℤ} (h : num < 0) (den : ℕ) :
    nearestInt num den = -(roundHalfEven num.natAbs den : ℤ) := by
  rw [nearestInt, decide_eq_true h]
  rfl

theorem nearestInt_of_nonneg {num : ℤ} (h : 0 ≤ num) (den : ℕ) :
    nearestInt num den = (roundHalfEven num.natAbs den : ℤ) := by
  rw [nearestInt, decide_eq_false (not_lt.mpr h)]
  rfl

theorem roundHalfEven_near (num : ℕ) {den : ℕ} (hden : 0 < den) :
    2 * num ≤ 2 * (den * roundHalfEven num den) + den ∧ 2 * (den * roundHalfEven num den) ≤ 2 * num + den ∧
      (2 * num = 2 * (den * roundHalfEven num den) + den ∨ 2 * (den * roundHalfEven num den) = 2 * num + den →
        roundHalfEven num den % 2 = 0) := by
  have hdivision := Nat.div_add_mod num den
  have hrest := Nat.mod_lt num hden
  unfold roundHalfEven
  dsimp only
  split
  · omega
  · split
    · rw [Nat.mul_succ]
      omega
    · rcases Nat.mod_two_eq_zero_or_one (num / den) with heven | hodd
      · rw [heven, Nat.add_zero]
        omega
      · rw [hodd, Nat.mul_succ]
        omega

/-- **The nearest integer is at most a half away**, and even if it is just that. -/
theorem nearestInt_near (num : ℤ) {den : ℕ} (hden : 0 < den) :
    2 * num ≤ 2 * (den * nearestInt num den) + den ∧ 2 * (den * nearestInt num den) ≤ 2 * num + den ∧
      (2 * num = 2 * (den * nearestInt num den) + den ∨ 2 * (den * nearestInt num den) = 2 * num + den →
        nearestInt num den % 2 = 0) := by
  have hnear := roundHalfEven_near num.natAbs hden
  have hcast : ((den * roundHalfEven num.natAbs den : ℕ) : ℤ) = den * (roundHalfEven num.natAbs den : ℤ) :=
    Nat.cast_mul _ _
  rcases lt_or_ge num 0 with hneg | hpos
  · rw [nearestInt_of_neg hneg, mul_neg, ← hcast]
    omega
  · rw [nearestInt_of_nonneg hpos, ← hcast]
    omega

theorem mul_neg_iff_of_pos {n c : ℤ} (hc : 0 < c) : n * c < 0 ↔ n < 0 :=
  ⟨fun h => neg_of_mul_neg_left h hc.le, fun h => mul_neg_of_neg_of_pos h hc⟩

theorem nearestInt_mul_right (num : ℤ) (den : ℕ) {c : ℕ} (hc : 0 < c) :
    nearestInt (num * c) (den * c) = nearestInt num den := by
  have hsign : decide (num * c < 0) = decide (num < 0) := by
    rw [decide_eq_decide]
    exact mul_neg_iff_of_pos (Nat.cast_pos.mpr hc)
  rw [nearestInt, nearestInt, hsign, Int.natAbs_mul, Int.natAbs_natCast, roundHalfEven_mul_right _ _ hc]

/-! ## Last places -/

/-- The doubles next to `num / den` are the multiples of `2 ^ (-e)`. -/
structure LastPlace (num : ℤ) (den e : ℕ) : Prop where
  den_pos : 0 < den
  le : e ≤ 1074
  low : 2 ^ 52 * den ≤ num.natAbs * 2 ^ e
  high : num.natAbs * 2 ^ e < 2 ^ 53 * den

namespace LastPlace

variable {num : ℤ} {den e : ℕ}

/-- A quotient that is small has a fine last place. -/
theorem lt_of_small (h : LastPlace num den e) {k : ℕ} (hsmall : num.natAbs * 2 ^ k < 2 ^ 52 * den) : k < e := by
  by_contra hle
  have := Nat.mul_le_mul_left num.natAbs (Nat.pow_le_pow_right (by decide : 0 < 2) (Nat.le_of_not_lt hle))
  have := h.low
  omega

/-- A quotient that is large has a coarse one. -/
theorem lt_of_large (h : LastPlace num den e) {k : ℕ} (hlarge : 2 ^ 53 * den ≤ num.natAbs * 2 ^ k) : e < k := by
  by_contra hle
  have := Nat.mul_le_mul_left num.natAbs (Nat.pow_le_pow_right (by decide : 0 < 2) (Nat.le_of_not_lt hle))
  have := h.high
  omega

/-- The double has all of its 53 bits in front of the last place, or is the first one with one more. -/
theorem nearestInt_bounds (h : LastPlace num den e) :
    2 ^ 52 ≤ (nearestInt (num * 2 ^ e) den).natAbs ∧ (nearestInt (num * 2 ^ e) den).natAbs ≤ 2 ^ 53 := by
  have hrounded := roundHalfEven_bounds (num.natAbs * 2 ^ e) den
  have hlow := (Nat.le_div_iff_mul_le h.den_pos).mpr h.low
  have hhigh := (Nat.div_lt_iff_lt_mul h.den_pos).mpr h.high
  have habs : (nearestInt (num * 2 ^ e) den).natAbs = roundHalfEven (num.natAbs * 2 ^ e) den := by
    have hnatAbs : (num * 2 ^ e).natAbs = num.natAbs * 2 ^ e := by
      rw [Int.natAbs_mul, Int.natAbs_pow]
      rfl
    unfold nearestInt signed
    rw [hnatAbs]
    split
    · rw [Int.natAbs_neg, Int.natAbs_natCast]
    · rw [Int.natAbs_natCast]
  rw [habs]
  omega

end LastPlace

/-- **A quotient that is not zero has a last place**, unless it is too large or too small. -/
theorem exists_lastPlace {num : ℤ} {den e₀ : ℕ} (hden : 0 < den) (he₀ : e₀ ≤ 1074)
    (hfine : 2 ^ 52 * den ≤ num.natAbs * 2 ^ e₀) (hlarge : num.natAbs < 2 ^ 53 * den) :
    ∃ e, LastPlace num den e := by
  induction e₀ with
  | zero => exact ⟨0, hden, he₀, hfine, by rwa [Nat.pow_zero, Nat.mul_one]⟩
  | succ e ih =>
    by_cases hfiner : 2 ^ 52 * den ≤ num.natAbs * 2 ^ e
    · exact ih (by omega) hfiner
    · refine ⟨e + 1, hden, he₀, hfine, ?_⟩
      rw [Nat.pow_succ, ← Nat.mul_assoc]
      omega

/-- Units are the last places of the smallest doubles. -/
theorem unitsPerOne_eq {e : ℕ} (he : e ≤ 1074) : unitsPerOne = 2 ^ e * 2 ^ (1074 - e) := by
  unfold unitsPerOne
  generalize (1074 : ℕ) = n at he ⊢
  rw [← Nat.pow_add, Nat.add_sub_cancel' he, Nat.pow_eq]

/-! ## Quotients -/

/-- **With a known last place, rounding to a double is rounding to an integer.** -/
theorem Magnitude.ofRatio?_lastPlace {num den e : ℕ} (hden : 0 < den) (he : e ≤ 1074)
    (hlow : 2 ^ 52 * den ≤ num * 2 ^ e) (hhigh : num * 2 ^ e < 2 ^ 53 * den) :
    ∃ x, ofRatio? num den = some x ∧ x.units = roundHalfEven (num * 2 ^ e) den * 2 ^ (1074 - e) := by
  have hstep : 0 < 2 ^ (1074 - e) := Nat.pow_pos (by decide)
  have hscaled : num * unitsPerOne = num * 2 ^ e * 2 ^ (1074 - e) := by
    rw [unitsPerOne_eq he, Nat.mul_assoc]
  -- the bits that are cut off are those behind the last place
  have hshift : (num * unitsPerOne / den).log2 - 52 = 1074 - e := by
    have hge : 2 ^ (52 + (1074 - e)) ≤ num * unitsPerOne / den := by
      rw [Nat.le_div_iff_mul_le hden, hscaled, Nat.pow_add, Nat.mul_right_comm]
      exact Nat.mul_le_mul_right _ hlow
    have hlt : num * unitsPerOne / den < 2 ^ (53 + (1074 - e)) := by
      rw [Nat.div_lt_iff_lt_mul hden, hscaled, Nat.pow_add, Nat.mul_right_comm (2 ^ 53)]
      exact Nat.mul_lt_mul_of_pos_right hhigh hstep
    have hne : num * unitsPerOne / den ≠ 0 := Nat.ne_of_gt (Nat.lt_of_lt_of_le (Nat.pow_pos (by decide)) hge)
    rw [← Nat.le_log2 hne] at hge
    rw [← Nat.log2_lt hne] at hlt
    omega
  have hround : roundHalfEven (num * unitsPerOne) (den * 2 ^ (1074 - e)) = roundHalfEven (num * 2 ^ e) den := by
    rw [hscaled, roundHalfEven_mul_right _ _ hstep]
  have hrounded := roundHalfEven_bounds (num * 2 ^ e) den
  have hge := (Nat.le_div_iff_mul_le hden).mpr hlow
  have hlt := (Nat.div_lt_iff_lt_mul hden).mpr hhigh
  rw [ofRatio?_eq]
  dsimp only
  rw [hshift, hround]
  generalize roundHalfEven (num * 2 ^ e) den = significand at hrounded ⊢
  split
  · rename_i hfull
    refine ⟨⟨2 ^ 52, 1074 - e + 1, by decide, by omega, .inr (Nat.le_refl _)⟩, make?_eq_some_iff.mpr ⟨rfl, rfl⟩, ?_⟩
    show 2 ^ 52 * 2 ^ (1074 - e + 1) = significand * 2 ^ (1074 - e)
    rw [hfull, Nat.pow_add, Nat.mul_comm (2 ^ (1074 - e)), ← Nat.mul_assoc, ← Nat.pow_add]
  · exact ⟨⟨significand, 1074 - e, by show significand < 2 ^ 53; omega, by omega, .inr (by show 2 ^ 52 ≤ significand; omega)⟩,
      make?_eq_some_iff.mpr ⟨rfl, rfl⟩, rfl⟩

theorem Magnitude.eq_of_units {x y : Magnitude} (h : x.units = y.units) : x = y := by
  have hx := x.ofRatio?_of_units unitsPerOne_pos (Eq.refl (x.units * unitsPerOne))
  rw [h, y.ofRatio?_of_units unitsPerOne_pos rfl] at hx
  exact (Option.some.inj hx).symm

namespace Binary64

theorem units?_finite (negative : Bool) (x : Magnitude) :
    (finite negative x).units? = some (signed negative (x.units : ℤ)) := by
  cases negative <;> rfl

/-- The double nearest to a quotient, in units. -/
theorem ofRatio?_lastPlace {num : ℤ} {den e : ℕ} (h : LastPlace num den e) :
    ∃ negative x, ofRatio? num den = some (.finite negative x) ∧
      (finite negative x).units? = some (nearestInt (num * 2 ^ e) den * 2 ^ (1074 - e)) := by
  obtain ⟨x, hx, hunits⟩ := Magnitude.ofRatio?_lastPlace h.den_pos h.le h.low h.high
  refine ⟨decide (num < 0), x, by rw [ofRatio?, hx]; rfl, ?_⟩
  have hsign : decide (num * 2 ^ e < 0) = decide (num < 0) := by
    rw [decide_eq_decide]
    exact mul_neg_iff_of_pos (pow_pos two_pos e)
  have hnatAbs : (num * 2 ^ e).natAbs = num.natAbs * 2 ^ e := by
    rw [Int.natAbs_mul, Int.natAbs_pow]
    rfl
  rw [units?_finite, hunits, nearestInt, hsign, hnatAbs]
  unfold signed
  split
  · push_cast
    rw [neg_mul]
  · push_cast
    rfl

theorem ofRatio?_mul_right (num : ℤ) (den : ℕ) {c : ℕ} (hc : 0 < c) :
    ofRatio? (num * c) (den * c) = ofRatio? num den := by
  have hsign : decide (num * c < 0) = decide (num < 0) := by
    rw [decide_eq_decide]
    exact mul_neg_iff_of_pos (Nat.cast_pos.mpr hc)
  rw [ofRatio?, ofRatio?, Int.natAbs_mul, Int.natAbs_natCast, Magnitude.ofRatio?_mul_right _ _ hc, hsign]

/-- Equal quotients round to the same double. -/
theorem ofRatio?_congr {num num' : ℤ} {den den' : ℕ} (hden : 0 < den) (hden' : 0 < den')
    (h : num * den' = num' * den) : ofRatio? num den = ofRatio? num' den' := by
  rw [← ofRatio?_mul_right num den hden', h, Nat.mul_comm den den', ofRatio?_mul_right num' den' hden]

theorem ofRatio?_zero {den : ℕ} (hden : 0 < den) : ofRatio? 0 den = some (.finite false .zero) := by
  have hsmall : Magnitude.ofRatio? 0 den = some .zero :=
    Magnitude.ofRatio?_of_small hden (by rw [Nat.zero_mul, Nat.mul_zero]; exact Nat.zero_le den)
  rw [ofRatio?, Int.natAbs_zero, hsmall]
  rfl

theorem units?_zero : (finite false .zero).units? = some 0 := by
  rw [units?_finite]
  exact congrArg (fun n : ℕ => some (n : ℤ)) (Nat.zero_mul _)

/-! ## What becomes of a double -/

/-- **A double is rounded down by its last places.** -/
theorem floor?_of_units {x : Binary64} {s : ℤ} {e : ℕ} (he : e ≤ 1074)
    (h : x.units? = some (s * 2 ^ (1074 - e))) : x.floor? = some (s / 2 ^ e) := by
  have hstep : (0 : ℤ) < 2 ^ (1074 - e) := pow_pos two_pos _
  rw [floor?, h, Option.map_some, unitsPerOne_eq he, Int.fdiv_eq_ediv_of_nonneg _ (Int.natCast_nonneg _)]
  push_cast
  rw [Int.mul_ediv_mul_of_pos_left _ _ hstep]

/-- **A double times a natural number is a quotient of its last places.** -/
theorem scale?_of_units {x : Binary64} {s : ℤ} {e : ℕ} (he : e ≤ 1074)
    (h : x.units? = some (s * 2 ^ (1074 - e))) (factor : ℕ) : x.scale? factor = ofRatio? (s * factor) (2 ^ e) := by
  have hstep : 0 < 2 ^ (1074 - e) := Nat.pow_pos (by decide)
  have hscaled : s * 2 ^ (1074 - e) * factor = s * factor * (2 ^ (1074 - e) : ℕ) := by
    push_cast
    ring
  rw [scale?, h, Option.bind_some, unitsPerOne_eq he, hscaled, ofRatio?_mul_right _ _ hstep]

end Binary64

end Template.Number
