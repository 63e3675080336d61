import Mathlib.Algebra.Order.Field.Rat
import Mathlib.Algebra.Order.Ring.Abs
import Mathlib.Tactic.FieldSimp
import Mathlib.Tactic.Linarith
import Mathlib.Tactic.Positivity
import Mathlib.Tactic.Ring
import Template.Number.Basic
import Template.Proofs.Shortest

/-!
# `Template.Proofs.Rounding` — rounding takes the nearest double

`Magnitude.ofRatio?` cuts a quotient to 53 bits and rounds what is left to a whole number. That this is the nearest
double takes an argument, because doubles are not evenly spaced: below the binade of the quotient they lie closer
together, and above it further apart. All of them above are multiples of the step that was chosen, so none is nearer
than the nearest multiple, and all of them below lie behind the end of the binade, which is a multiple as well.

A quotient may be too large. It has a nearest double only if no number behind the greatest double is as near, where
doubles are thought to go on. So nearness is said of all significands and all shifts (`Magnitude.Rounds`), and reading
a decimal number is characterised with it (`ofDecimal?_eq_some_iff`).

## Contents
- `distance`, `nearest_multiple` — whole numbers, and multiples of a step.
- `Nearest`, `nearest_cut` — numbers with 53 significant bits.
- `Magnitude.ofRatio?_eq_some_iff`, `Magnitude.ofDecimal?_eq_some_iff` — the double nearest to a quotient, or to a decimal.
- `Magnitude.value`, `value?`, `narrow_eq_iff` — values of doubles, and those that become integers.
-/

namespace Template.Number

theorem unitsPerOne_pos : 0 < unitsPerOne := by
  unfold unitsPerOne
  generalize (1074 : ℕ) = n
  exact Nat.pow_pos (by decide)

theorem unitsPerOne_pos' : (0 : ℚ) < unitsPerOne := Nat.cast_pos.mpr unitsPerOne_pos

/-! ## Whole numbers -/

/-- How far a whole number is away from another number. -/
def distance (n : ℕ) (r : ℚ) : ℚ := |(n : ℚ) - r|

/-- The whole number that a quotient is rounded to is at most a half away, and even if it is just that. -/
theorem roundHalfEven_half (num : ℕ) {den : ℕ} (hden : 0 < den) :
    distance (roundHalfEven num den) (num / den) ≤ 1 / 2 ∧
      (distance (roundHalfEven num den) (num / den) = 1 / 2 → roundHalfEven num den % 2 = 0) := by
  have hden' : (0 : ℚ) < den := Nat.cast_pos.mpr hden
  have hquotient : (num : ℚ) / den = (num / den : ℕ) + (num % den : ℕ) / (den : ℚ) := by
    rw [div_eq_iff hden'.ne', add_mul, div_mul_cancel₀ _ hden'.ne']
    exact_mod_cast (Nat.div_add_mod' num den).symm
  have hrest : (0 : ℚ) ≤ (num % den : ℕ) / (den : ℚ) := by positivity
  rw [hquotient]
  unfold distance roundHalfEven
  dsimp only
  split
  · -- the rest is below a half
    rename_i hlow
    have hhalf : ((num % den : ℕ) : ℚ) / den < 1 / 2 := by
      rw [div_lt_div_iff₀ hden' two_pos, one_mul]
      exact_mod_cast (Nat.mul_comm 2 _ ▸ hlow)
    have habs : |((num / den : ℕ) : ℚ) - ((num / den : ℕ) + (num % den : ℕ) / (den : ℚ))| = (num % den : ℕ) / (den : ℚ) := by
      rw [sub_add_cancel_left, abs_neg, abs_of_nonneg hrest]
    rw [habs]
    exact ⟨hhalf.le, fun h => absurd h hhalf.ne⟩
  · split
    · -- it is above
      rename_i hhigh
      have hhalf : 1 / 2 < ((num % den : ℕ) : ℚ) / den := by
        rw [div_lt_div_iff₀ two_pos hden', one_mul]
        exact_mod_cast (Nat.mul_comm 2 _ ▸ hhigh)
      have hone : ((num % den : ℕ) : ℚ) / den < 1 := by
        rw [div_lt_one hden']
        exact_mod_cast Nat.mod_lt num hden
      have habs : |((num / den + 1 : ℕ) : ℚ) - ((num / den : ℕ) + (num % den : ℕ) / (den : ℚ))| =
          1 - (num % den : ℕ) / (den : ℚ) := by
        rw [Nat.cast_add_one, add_sub_add_left_eq_sub, abs_of_pos (by linarith)]
      rw [habs]
      exact ⟨by linarith, fun h => absurd h (by linarith)⟩
    · -- it is a half
      have hhalf : ((num % den : ℕ) : ℚ) / den = 1 / 2 := by
        rw [div_eq_div_iff hden'.ne' two_ne_zero, one_mul]
        have : num % den * 2 = den := by omega
        exact_mod_cast this
      rw [hhalf]
      refine ⟨?_, fun _ => by omega⟩
      rcases Nat.mod_two_eq_zero_or_one (num / den) with hzero | hone
      · rw [hzero, Nat.add_zero, sub_add_cancel_left, abs_neg, abs_of_pos one_half_pos]
      · rw [hone, Nat.cast_add_one, add_sub_add_left_eq_sub, abs_of_pos (by norm_num)]
        norm_num

/-- Rounding leaves the quotient or adds one. -/
theorem roundHalfEven_bounds (num den : ℕ) :
    num / den ≤ roundHalfEven num den ∧ roundHalfEven num den ≤ num / den + 1 := by
  unfold roundHalfEven
  dsimp only
  split
  · omega
  · split <;> omega

/-- A whole number that is at most a half away is nearest, and another one as near is a neighbour. -/
theorem nearer_of_half {m j : ℕ} {r : ℚ} (h : distance m r ≤ 1 / 2) (hne : j ≠ m) :
    distance m r ≤ distance j r ∧ (distance m r = distance j r → distance m r = 1 / 2 ∧ (j = m + 1 ∨ m = j + 1)) := by
  have hle := abs_le.mp h
  rcases Nat.lt_or_gt_of_ne hne with hlt | hgt
  · have hstep : (j : ℚ) + 1 ≤ m := by exact_mod_cast hlt
    have habs : distance j r = r - j := by
      rw [distance, abs_sub_comm, abs_of_nonneg (by linarith)]
    rw [habs]
    refine ⟨by linarith, ?_⟩
    intro htie
    have hone : (m : ℚ) ≤ j + 1 := by linarith
    have hone' : m ≤ j + 1 := by exact_mod_cast hone
    exact ⟨by linarith, .inr (Nat.le_antisymm hone' hlt)⟩
  · have hstep : (m : ℚ) + 1 ≤ j := by exact_mod_cast hgt
    have habs : distance j r = j - r := abs_of_nonneg (by linarith)
    rw [habs]
    refine ⟨by linarith, ?_⟩
    intro htie
    have hone : (j : ℚ) ≤ m + 1 := by linarith
    have hone' : j ≤ m + 1 := by exact_mod_cast hone
    exact ⟨by linarith, .inl (Nat.le_antisymm hone' hgt)⟩

/-- The greater of two whole numbers that are both not above a third number is nearer to it. -/
theorem distance_lt {m n : ℕ} {r : ℚ} (hlt : m < n) (hle : (n : ℚ) ≤ r) : distance n r < distance m r := by
  have hcast : (m : ℚ) < n := Nat.cast_lt.mpr hlt
  rw [distance, distance, abs_of_nonpos (by linarith), abs_of_nonpos (by linarith)]
  linarith

/-- Distances between multiples are measured in steps. -/
theorem distance_steps (j num : ℕ) {den step : ℕ} (hden : 0 < den) (hstep : 0 < step) :
    distance (j * step) (num / den) = step * distance j (num / (den * step : ℕ)) := by
  have hden' : (den : ℚ) ≠ 0 := Nat.cast_ne_zero.mpr hden.ne'
  have hstep' : (0 : ℚ) < step := Nat.cast_pos.mpr hstep
  have hscaled : ((j * step : ℕ) : ℚ) - num / den = step * ((j : ℚ) - num / (den * step : ℕ)) := by
    push_cast
    field_simp
  rw [distance, distance, hscaled, abs_mul, abs_of_pos hstep']

/-- **The multiple of a step that a quotient is rounded to is the nearest one.** Of two that are as near the first one
is even and the other one is odd. -/
theorem nearest_multiple (num : ℕ) {den step m : ℕ} (hden : 0 < den) (hstep : 0 < step)
    (hm : m = roundHalfEven num (den * step)) (j : ℕ) :
    distance (m * step) (num / den) ≤ distance (j * step) (num / den) ∧
      (j ≠ m → distance (m * step) (num / den) = distance (j * step) (num / den) → m % 2 = 0 ∧ j % 2 = 1) := by
  have hstep' : (0 : ℚ) < step := Nat.cast_pos.mpr hstep
  obtain ⟨hhalf, heven⟩ := roundHalfEven_half num (Nat.mul_pos hden hstep)
  rw [← hm] at hhalf heven
  rw [distance_steps m num hden hstep, distance_steps j num hden hstep, mul_right_inj' hstep'.ne']
  by_cases heq : j = m
  · rw [heq]
    exact ⟨le_refl _, fun hne => absurd rfl hne⟩
  · obtain ⟨hnear, hneighbour⟩ := nearer_of_half hhalf heq
    refine ⟨mul_le_mul_of_nonneg_left hnear hstep'.le, ?_⟩
    intro _ htie
    obtain ⟨hmiddle, hnext⟩ := hneighbour htie
    have hmeven : m % 2 = 0 := heven hmiddle
    exact ⟨hmeven, by omega⟩

/-! ## Quotients -/

/-- The significand and the shift are those of the number of units nearest to `r`: no other number with 53
significant bits is nearer, and another one is as near only if the significand is even. -/
structure Nearest (significand shift : ℕ) (r : ℚ) : Prop where
  nearest : ∀ n k, n < 2 ^ 53 → distance (significand * 2 ^ shift) r ≤ distance (n * 2 ^ k) r
  even : ∀ n k, n < 2 ^ 53 → n * 2 ^ k ≠ significand * 2 ^ shift →
    distance (significand * 2 ^ shift) r = distance (n * 2 ^ k) r → significand % 2 = 0

/-- The one form of a number with 53 significant bits. -/
structure Normal (significand shift : ℕ) : Prop where
  lt : significand < 2 ^ 53
  le : shift = 0 ∨ 2 ^ 52 ≤ significand

/-- Where the bits of a whole number are cut off, what is left has 53 bits, unless there were not so many. -/
theorem cut_bounds (num den : ℕ) {shift : ℕ} (hshift : shift = (num / den).log2 - 52) :
    num / (den * 2 ^ shift) < 2 ^ 53 ∧ (shift = 0 ∨ 2 ^ 52 ≤ num / (den * 2 ^ shift)) := by
  have hstep : 0 < 2 ^ shift := Nat.pow_pos (by decide)
  rw [← Nat.div_div_eq_div_mul, Nat.div_lt_iff_lt_mul hstep, Nat.le_div_iff_mul_le hstep, ← Nat.pow_add,
    ← Nat.pow_add, Nat.add_comm 53, Nat.add_comm 52]
  constructor
  · exact Nat.lt_of_lt_of_le Nat.lt_log2_self (Nat.pow_le_pow_right (by decide) (by omega))
  · rcases Nat.eq_zero_or_pos shift with hzero | hpos
    · exact .inl hzero
    · have hne : num / den ≠ 0 := by
        intro h
        rw [h] at hshift
        exact absurd hshift (Nat.ne_of_gt hpos)
      rw [← Nat.le_log2 hne]
      omega

/-- With a smaller step and 53 bits, numbers do not get as far as the binade of a larger step. -/
theorem lt_binade {n k shift : ℕ} (hn : n < 2 ^ 53) (hlt : k < shift) : n * 2 ^ k < 2 ^ 52 * 2 ^ shift := by
  calc n * 2 ^ k < 2 ^ 53 * 2 ^ k := Nat.mul_lt_mul_of_pos_right hn (Nat.pow_pos (by decide))
    _ = 2 ^ 52 * 2 ^ (k + 1) := by rw [← Nat.pow_add, ← Nat.pow_add, show 53 + k = 52 + (k + 1) by omega]
    _ ≤ 2 ^ 52 * 2 ^ shift := Nat.mul_le_mul_left _ (Nat.pow_le_pow_right (by decide) hlt)

theorem odd_of_mul {n a : ℕ} (h : n * a % 2 = 1) : n % 2 = 1 := by
  rcases Nat.mod_two_eq_zero_or_one n with heven | hodd
  · rw [Nat.mul_mod, heven, Nat.zero_mul] at h
    cases h
  · exact hodd

/-- **The multiple of the step that a quotient is rounded to is the nearest number with 53 significant bits.** One
that is as near is an odd multiple, and the first one is even. -/
theorem nearest_cut (num : ℕ) {den shift m : ℕ} (hden : 0 < den) (hshift : shift = (num / den).log2 - 52)
    (hm : m = roundHalfEven num (den * 2 ^ shift)) {n : ℕ} (hn : n < 2 ^ 53) (k : ℕ) :
    distance (m * 2 ^ shift) (num / den) ≤ distance (n * 2 ^ k) (num / den) ∧
      (n * 2 ^ k ≠ m * 2 ^ shift → distance (m * 2 ^ shift) (num / den) = distance (n * 2 ^ k) (num / den) →
        m % 2 = 0 ∧ n % 2 = 1) := by
  have hstep : 0 < 2 ^ shift := Nat.pow_pos (by decide)
  have hmultiple := nearest_multiple num hden hstep hm
  rcases Nat.lt_or_ge k shift with hlt | hge
  · -- numbers with a smaller step lie behind the end of the binade, which is a multiple of the step
    obtain hzero | hlow := (cut_bounds num den hshift).2
    · omega
    have hend : ((2 ^ 52 * 2 ^ shift : ℕ) : ℚ) ≤ num / den := by
      rw [le_div_iff₀ (Nat.cast_pos.mpr hden)]
      have hnum := (Nat.le_div_iff_mul_le (Nat.mul_pos hden hstep)).mp hlow
      rw [Nat.mul_comm den, ← Nat.mul_assoc] at hnum
      exact_mod_cast hnum
    have hnearer := lt_of_le_of_lt (hmultiple (2 ^ 52)).1 (distance_lt (lt_binade hn hlt) hend)
    exact ⟨hnearer.le, fun _ htie => absurd htie hnearer.ne⟩
  · -- all others are multiples of the step
    have hsteps : n * 2 ^ k = n * 2 ^ (k - shift) * 2 ^ shift := by
      rw [Nat.mul_assoc, ← Nat.pow_add, Nat.sub_add_cancel hge]
    obtain ⟨hnear, htie⟩ := hmultiple (n * 2 ^ (k - shift))
    rw [hsteps]
    refine ⟨hnear, ?_⟩
    intro hne heq
    obtain ⟨heven, hodd⟩ := htie (fun h => hne (by rw [h])) heq
    exact ⟨heven, odd_of_mul hodd⟩

theorem Normal.unique {m h n k : ℕ} (hm : Normal m h) (hn : Normal n k) (heq : n * 2 ^ k = m * 2 ^ h) :
    n = m ∧ k = h := by
  have hshift : k = h := by
    rw [← Magnitude.log2_normal hn.lt hn.le, heq, Magnitude.log2_normal hm.lt hm.le]
  rw [hshift] at heq
  exact ⟨Nat.eq_of_mul_eq_mul_right (Nat.pow_pos (by decide)) heq, hshift⟩

namespace Magnitude

theorem normal_parts (x : Magnitude) : Normal x.significand x.shift :=
  ⟨x.lt_two_pow, x.two_pow_le⟩

theorem make?_eq_some_iff {significand shift : ℕ} {x : Magnitude} :
    make? significand shift = some x ↔ x.significand = significand ∧ x.shift = shift := by
  unfold make?
  constructor
  · intro h
    split at h
    · cases h
      exact ⟨rfl, rfl⟩
    · cases h
  · rintro ⟨rfl, rfl⟩
    exact make?_self x

/-- What rounding makes a double of, before it is known to be in range. -/
theorem exists_rounded (num : ℕ) {den : ℕ} (hden : 0 < den) :
    ∃ significand shift, ofRatio? num den = make? significand shift ∧ Normal significand shift ∧
      ∀ n k, n < 2 ^ 53 →
        distance (significand * 2 ^ shift) ((num * unitsPerOne : ℕ) / den) ≤
            distance (n * 2 ^ k) ((num * unitsPerOne : ℕ) / den) ∧
          (n * 2 ^ k ≠ significand * 2 ^ shift →
            distance (significand * 2 ^ shift) ((num * unitsPerOne : ℕ) / den) =
                distance (n * 2 ^ k) ((num * unitsPerOne : ℕ) / den) →
              significand % 2 = 0 ∧ n % 2 = 1) := by
  rw [ofRatio?_eq]
  dsimp only
  generalize num * unitsPerOne = scaled
  generalize hshift : (scaled / den).log2 - 52 = shift
  have hbounds := cut_bounds scaled den hshift.symm
  have hrounded := roundHalfEven_bounds scaled (den * 2 ^ shift)
  generalize hm : roundHalfEven scaled (den * 2 ^ shift) = m at hrounded ⊢
  have hnearest := fun n k hn => nearest_cut scaled hden hshift.symm hm.symm (n := n) hn k
  have hle : m ≤ 2 ^ 53 := Nat.le_trans hrounded.2 hbounds.1
  have hge : shift = 0 ∨ 2 ^ 52 ≤ m := hbounds.2.imp_right fun h => Nat.le_trans h hrounded.1
  split
  · -- the significand has got one bit more, and that one is the only one that is set
    rename_i hfull
    have hunits : m * 2 ^ shift = 2 ^ 52 * 2 ^ (shift + 1) := by
      rw [hfull, ← Nat.pow_add, ← Nat.pow_add, show 53 + shift = 52 + (shift + 1) by omega]
    rw [hunits] at hnearest
    refine ⟨2 ^ 52, shift + 1, rfl, ⟨by decide, .inr (le_refl _)⟩, ?_⟩
    intro n k hn
    obtain ⟨hnear, htie⟩ := hnearest n k hn
    exact ⟨hnear, fun hne heq => ⟨by decide, (htie hne heq).2⟩⟩
  · exact ⟨m, shift, rfl, ⟨lt_of_le_of_ne hle ‹_›, hge⟩, hnearest⟩

/-- **A quotient is rounded to a double if and only if that one is nearest to it.** -/
theorem ofRatio?_eq_some_iff {num den : ℕ} (hden : 0 < den) {x : Magnitude} :
    ofRatio? num den = some x ↔ Nearest x.significand x.shift ((num * unitsPerOne : ℕ) / den) := by
  obtain ⟨significand, shift, hround, hnormal, hnearest⟩ := exists_rounded num hden
  rw [hround, make?_eq_some_iff]
  constructor
  · rintro ⟨hsignificand, hshift⟩
    rw [hsignificand, hshift]
    exact ⟨fun n k hn => (hnearest n k hn).1, fun n k hn hne htie => ((hnearest n k hn).2 hne htie).1⟩
  · intro hx
    have htie := le_antisymm (hnearest x.significand x.shift x.lt_two_pow).1 (hx.nearest significand shift hnormal.lt)
    by_cases heq : x.significand * 2 ^ x.shift = significand * 2 ^ shift
    · exact hnormal.unique x.normal_parts heq
    · -- of two numbers that are as near one has an odd significand
      have hodd := ((hnearest x.significand x.shift x.lt_two_pow).2 heq htie).2
      have heven := hx.even significand shift hnormal.lt (Ne.symm heq) htie.symm
      omega

/-! ## Decimals -/

/-- The value of a finite double without its sign. -/
def value (x : Magnitude) : ℚ := x.units / unitsPerOne

/-- **The double nearest to a number**: no number with 53 significant bits is nearer, of whatever size, and of two that
are as near it is the one whose significand is even. -/
def Rounds (x : Magnitude) (q : ℚ) : Prop := Nearest x.significand x.shift (q * unitsPerOne)

theorem ofRatio?_eq_some_iff_rounds {num den : ℕ} (hden : 0 < den) {x : Magnitude} :
    ofRatio? num den = some x ↔ x.Rounds (num / den) := by
  have hscaled : ((num * unitsPerOne : ℕ) : ℚ) / den = num / den * unitsPerOne := by
    rw [Nat.cast_mul, div_mul_eq_mul_div]
  rw [ofRatio?_eq_some_iff hden, hscaled, Rounds]

/-- What is as large as the first number behind the doubles has no nearest double. -/
theorem ofRatio?_of_large {num den : ℕ} (hden : 0 < den) (h : 10 ^ 310 * den ≤ num) : ofRatio? num den = none := by
  have hfirst : 2 ^ 53 * 2 ^ 2045 ≤ 2 ^ 52 * 2 ^ 2046 := by decide +kernel
  have hbelow : 2 ^ 52 * 2 ^ 2046 ≤ 10 ^ 310 * unitsPerOne := by decide +kernel
  rw [Option.eq_none_iff_forall_ne_some]
  intro x hx
  have hnearest := ((ofRatio?_eq_some_iff hden).mp hx).nearest (2 ^ 52) 2046 (by decide)
  have hlt := Nat.lt_of_lt_of_le (x.units_lt x.shift_le) hfirst
  -- the powers themselves are too large to be looked at
  generalize 2 ^ 52 * 2 ^ 2046 = first at hbelow hnearest hlt
  generalize 10 ^ 310 = bound at hbelow h
  have hle : (first : ℚ) ≤ (num * unitsPerOne : ℕ) / den := by
    rw [le_div_iff₀ (Nat.cast_pos.mpr hden)]
    have : first * den ≤ num * unitsPerOne := by
      calc first * den ≤ bound * unitsPerOne * den := Nat.mul_le_mul_right den hbelow
        _ = bound * den * unitsPerOne := Nat.mul_right_comm _ _ _
        _ ≤ num * unitsPerOne := Nat.mul_le_mul_right _ h
    exact_mod_cast this
  exact absurd (distance_lt hlt hle) (not_lt.mpr hnearest)

/-- What is not above a half of the least positive double is rounded to zero. -/
theorem ofRatio?_of_small {num den : ℕ} (hden : 0 < den) (h : 2 * (num * unitsPerOne) ≤ den) :
    ofRatio? num den = some zero := by
  rw [ofRatio?_eq_some_iff hden]
  generalize num * unitsPerOne = scaled at h ⊢
  have hhalf : distance 0 (scaled / den) ≤ 1 / 2 := by
    rw [distance, Nat.cast_zero, zero_sub, abs_neg, abs_of_nonneg (by positivity),
      div_le_div_iff₀ (Nat.cast_pos.mpr hden) two_pos, one_mul, mul_comm]
    exact_mod_cast h
  refine ⟨?_, fun _ _ _ _ _ => rfl⟩
  intro n k _
  by_cases heq : n * 2 ^ k = 0
  · rw [heq]
    exact le_refl _
  · exact (nearer_of_half hhalf heq).1

/-- **Reading a decimal is rounding**: those that are set aside for their size would have been rounded the same. -/
theorem ofDecimal?_eq_ofRatio? (digits : ℕ) (exponent : ℤ) :
    ofDecimal? digits exponent = ofRatio? (digits * 10 ^ exponent.toNat) (10 ^ (-exponent).toNat) := by
  have hden : 0 < 10 ^ (-exponent).toNat := Nat.pow_pos (by decide)
  by_cases hdigits : digits = 0
  · rw [hdigits, Nat.zero_mul, ofRatio?_of_small hden (by rw [Nat.zero_mul]; exact Nat.zero_le _)]
    rfl
  · obtain ⟨hpos, hlow, hhigh⟩ := Text.decimalLength_bounds (Nat.pos_of_ne_zero hdigits)
    rw [ofDecimal?_eq hdigits]
    generalize Text.decimalLength digits = length at hpos hlow hhigh ⊢
    split
    · -- there are too many places
      refine (ofRatio?_of_large hden ?_).symm
      calc 10 ^ 310 * 10 ^ (-exponent).toNat = 10 ^ (310 + (-exponent).toNat) := (pow_add _ _ _).symm
        _ ≤ 10 ^ (length - 1 + exponent.toNat) := Nat.pow_le_pow_right (by decide) (by omega)
        _ = 10 ^ (length - 1) * 10 ^ exponent.toNat := Nat.pow_add _ _ _
        _ ≤ digits * 10 ^ exponent.toNat := Nat.mul_le_mul_right _ hlow
    · split
      · -- the first digit is too far behind the point
        have hunit : 2 * unitsPerOne ≤ 10 ^ 331 := by decide +kernel
        have hzeros : exponent.toNat = 0 := by omega
        refine (ofRatio?_of_small hden ?_).symm
        calc 2 * (digits * 10 ^ exponent.toNat * unitsPerOne) = digits * (2 * unitsPerOne) := by
              rw [hzeros, Nat.pow_zero, Nat.mul_one, Nat.mul_left_comm]
          _ ≤ 10 ^ length * 10 ^ 331 := Nat.mul_le_mul (Nat.le_of_lt hhigh) hunit
          _ = 10 ^ (length + 331) := (pow_add _ _ _).symm
          _ ≤ 10 ^ (-exponent).toNat := Nat.pow_le_pow_right (by decide) (by omega)
      · rfl

/-- A decimal as a quotient. -/
theorem decimal_eq_div (digits : ℕ) (exponent : ℤ) :
    (digits : ℚ) * 10 ^ exponent = (digits * 10 ^ exponent.toNat : ℕ) / (10 ^ (-exponent).toNat : ℕ) := by
  push_cast
  rw [mul_div_assoc, ← zpow_natCast, ← zpow_natCast, ← zpow_sub₀ (by norm_num)]
  congr 2
  omega

/-- **Reading a decimal gives the double nearest to it**, and none if and only if there is none. -/
theorem ofDecimal?_eq_some_iff {digits : ℕ} {exponent : ℤ} {x : Magnitude} :
    ofDecimal? digits exponent = some x ↔ x.Rounds (digits * 10 ^ exponent) := by
  rw [ofDecimal?_eq_ofRatio?, ofRatio?_eq_some_iff_rounds (Nat.pow_pos (by decide)), decimal_eq_div]

/-! ## Values -/

/-- A double is whole if and only if its units are units of its floor. -/
theorem value_eq_intCast_iff {x : Magnitude} {n : ℤ} : x.value = n ↔ x.isIntegral = true ∧ (x.floor : ℤ) = n := by
  have hcast : x.value = n ↔ (x.units : ℤ) = n * unitsPerOne := by
    rw [value, div_eq_iff unitsPerOne_pos'.ne']
    exact_mod_cast Iff.rfl
  have hunit : (unitsPerOne : ℤ) ≠ 0 := Int.natCast_ne_zero.mpr unitsPerOne_pos.ne'
  rw [hcast, isIntegral, floor, beq_iff_eq, ← Nat.dvd_iff_mod_eq_zero, Int.natCast_ediv]
  constructor
  · intro h
    refine ⟨Int.natCast_dvd_natCast.mp ⟨n, by rw [h, mul_comm]⟩, ?_⟩
    rw [h, Int.mul_ediv_cancel _ hunit]
  · rintro ⟨hdvd, rfl⟩
    exact (Int.ediv_mul_cancel (Int.natCast_dvd_natCast.mpr hdvd)).symm

end Magnitude

/-- A number or its negative. -/
def signed {R : Type} [Neg R] (negative : Bool) (a : R) : R :=
  if negative then -a else a

/-- The value of a finite double. -/
def Binary64.value? : Binary64 → Option ℚ
  | .finite negative x => some (signed negative x.value)
  | _ => none

/-- The value of a number that is finite. -/
def value? : Number → Option ℚ
  | .integer n => some n
  | .real x => x.value?

/-- The integer that a double equals. -/
theorem toInt?_eq_some_iff {negative : Bool} {x : Magnitude} {n : ℤ} :
    (Binary64.finite negative x).toInt? = some n ↔ signed negative x.value = n := by
  have hsign : signed negative x.value = n ↔ x.value = (signed negative n : ℤ) := by
    cases negative with
    | false => exact Iff.rfl
    | true =>
      show -x.value = n ↔ x.value = (-n : ℤ)
      rw [Int.cast_neg, neg_eq_iff_eq_neg]
  rw [hsign, Magnitude.value_eq_intCast_iff]
  unfold Binary64.toInt?
  dsimp only
  split
  · rename_i hwhole
    rw [Option.some.injEq]
    cases negative with
    | false => exact ⟨fun h => ⟨hwhole, h⟩, fun h => h.2⟩
    | true =>
      show -(x.floor : ℤ) = n ↔ x.isIntegral = true ∧ (x.floor : ℤ) = -n
      rw [neg_eq_iff_eq_neg]
      exact ⟨fun h => ⟨hwhole, h⟩, fun h => h.2⟩
  · rename_i hbetween
    exact ⟨fun h => (nomatch h), fun h => absurd h.1 hbetween⟩

/-- A double becomes an integer if and only if it equals one. -/
theorem narrow_eq_iff {negative : Bool} {x : Magnitude} {n : Number} :
    narrow (.finite negative x) = n ↔
      (∃ i : ℤ, signed negative x.value = i ∧ n = .integer i) ∨
        ((∀ i : ℤ, signed negative x.value ≠ i) ∧ n = .real (.finite negative x)) := by
  simp only [ne_eq, ← toInt?_eq_some_iff]
  unfold narrow
  cases htoInt : (Binary64.finite negative x).toInt? with
  | none => simp [eq_comm]
  | some i => simp [eq_comm]

end Template.Number
