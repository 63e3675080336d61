import Mathlib.Algebra.Order.Group.Nat
import Template.Generator
import Template.Proofs.Numeral

/-!
# `Template.Proofs.Identifier` — identifiers from random numbers

A UUID of version 4 shows a number of 128 bits in hexadecimal digits. Four of the bits tell the version and two the variant;
all others are those of the random number that it is made from, each at its own place.

## Contents
- `Text.hexDigits`, `Text.paddedHex_eq` — numbers in hexadecimal digits.
- `Text.ofHex` — the number that such digits stand for.
- `Generator.stamp`, `testBit_stamp` — a number with version and variant put in.
- `Generator.uuid_eq`, `Generator.uuid_shows` — the text of a UUID, and what it shows.
-/

namespace Template

namespace Text

/-! ## Hexadecimal digits -/

/-- The values of the last `width` hexadecimal digits of a number. -/
def hexDigits : (width : ℕ) → ℕ → List ℕ
  | 0, _ => []
  | width + 1, n => hexDigits width (n / 16) ++ [n % 16]

@[simp]
theorem length_hexDigits (width n : ℕ) : (hexDigits width n).length = width := by
  induction width generalizing n with
  | zero => rfl
  | succ width ih => rw [hexDigits, List.length_append, ih, List.length_singleton]

theorem lt_of_mem_hexDigits {width n d : ℕ} (h : d ∈ hexDigits width n) : d < 16 := by
  induction width generalizing n with
  | zero => cases h
  | succ width ih =>
    rw [hexDigits, List.mem_append, List.mem_singleton] at h
    rcases h with h | rfl
    · exact ih h
    · exact Nat.mod_lt n (by decide)

theorem hexDigits_zero (width : ℕ) : hexDigits width 0 = List.replicate width 0 := by
  induction width with
  | zero => rfl
  | succ width ih => rw [hexDigits, Nat.zero_div, ih, List.replicate_succ']

/-- Digits in front and digits behind. -/
theorem hexDigits_add (front back n : ℕ) :
    hexDigits (front + back) n = hexDigits front (n / 16 ^ back) ++ hexDigits back n := by
  induction back generalizing n with
  | zero => rw [Nat.add_zero, pow_zero, Nat.div_one, hexDigits, List.append_nil]
  | succ back ih =>
    rw [← Nat.add_assoc, hexDigits, ih, hexDigits, List.append_assoc, Nat.div_div_eq_div_mul, Nat.pow_succ']

/-- Digits further in front do not matter. -/
theorem hexDigits_mod (width n : ℕ) : hexDigits width (n % 16 ^ width) = hexDigits width n := by
  induction width generalizing n with
  | zero => rfl
  | succ width ih =>
    have hback : n % 16 ^ (width + 1) % 16 = n % 16 := Nat.mod_mod_of_dvd n ⟨16 ^ width, Nat.pow_succ'⟩
    have hfront : n % 16 ^ (width + 1) / 16 = n / 16 % 16 ^ width := by rw [Nat.pow_succ', Nat.mod_mul_right_div_self]
    rw [hexDigits, hexDigits, hback, hfront, ih]

/-- The digits of a number that is put together from two, of which the second has its last `back` digits. -/
theorem hexDigits_pair {unit front back high low : ℕ} (hunit : unit = 16 ^ back) (hlow : low < unit) :
    hexDigits (front + back) (unit * high + low) = hexDigits front high ++ hexDigits back low := by
  subst hunit
  rw [hexDigits_add, Nat.mul_add_div (Nat.pow_pos (by decide)), Nat.div_eq_of_lt hlow, Nat.add_zero,
    ← hexDigits_mod back, Nat.mul_add_mod, Nat.mod_eq_of_lt hlow]

/-- A number that is not too long is written in exactly so many digits. -/
theorem paddedHex_eq {unit width n : ℕ} (hwidth : 0 < width) (hunit : unit = 16 ^ width) (h : n < unit) :
    paddedHex width n = row (hexDigits width n) := by
  subst hunit
  induction width generalizing n with
  | zero => cases hwidth
  | succ width ih =>
    by_cases hn : n < 16
    · rw [paddedHex, Nat.toDigits_of_lt_base hn, hexDigits, Nat.div_eq_of_lt hn, hexDigits_zero, Nat.mod_eq_of_lt hn,
        row_append, row_replicate_zero]
      rfl
    · have hfront : n / 16 < 16 ^ width := Nat.div_lt_of_lt_mul (by rwa [← Nat.pow_succ'])
      have hpos : 0 < width := by
        rw [Nat.pos_iff_ne_zero]
        rintro rfl
        omega
      -- the last digit stands behind those of a sixteenth of the number
      rw [paddedHex, Nat.toDigits_of_base_le (by decide) (Nat.le_of_not_lt hn), List.length_append, List.length_singleton,
        Nat.add_sub_add_right, ← List.append_assoc, hexDigits, row_append]
      exact congrArg (· ++ _) (ih hpos hfront)

/-- The number that hexadecimal digits stand for, the most significant first. -/
def ofHex (digits : List Char) : ℕ :=
  digits.foldl (fun n c => 16 * n + (hexValue? c).getD 0) 0

theorem hexValue?_digitChar : ∀ d < 16, hexValue? (Nat.digitChar d) = some d := by
  decide

theorem ofHex_row_hexDigits (width n : ℕ) : ofHex (row (hexDigits width n)) = n % 16 ^ width := by
  induction width generalizing n with
  | zero => exact (Nat.mod_one n).symm
  | succ width ih =>
    have hlast := hexValue?_digitChar (n % 16) (Nat.mod_lt n (by decide))
    calc ofHex (row (hexDigits (width + 1) n))
        = 16 * ofHex (row (hexDigits width (n / 16))) + n % 16 := by
          rw [hexDigits, row_append, ofHex, List.foldl_append]
          show 16 * _ + (hexValue? (Nat.digitChar (n % 16))).getD 0 = _
          rw [hlast]
          rfl
      _ = n % 16 ^ (width + 1) := by rw [ih, Nat.pow_succ', Nat.mod_mul, Nat.add_comm]

theorem digitChar_hexadecimal : ∀ d < 16, Nat.digitChar d ∈ "0123456789abcdef".toList := by
  decide

end Text

namespace Generator

open Text

/-! ## Version and variant -/

/-- A number of 128 bits with the version in front of twelve of its bits, and the variant in front of 62. -/
def stamp (n : ℕ) : ℕ :=
  2 ^ 48 * (2 ^ 16 * (2 ^ 12 * (2 ^ 4 * (n / 2 ^ 80 % 2 ^ 48) + 4) + n / 2 ^ 64 % 2 ^ 12) +
    (2 ^ 14 * 2 + n / 2 ^ 48 % 2 ^ 14)) + n % 2 ^ 48

theorem stamp_lt (n : ℕ) : stamp n < 16 ^ 32 := by
  unfold stamp
  omega

/-- A bit of a field is the bit of the number at the place of the field. -/
theorem testBit_part {n place width i : ℕ} (h : i < width) :
    (n / 2 ^ place % 2 ^ width).testBit i = n.testBit (i + place) := by
  rw [Nat.testBit_mod_two_pow, Nat.testBit_div_two_pow, decide_eq_true h, Bool.true_and]

/-- **Every bit but those of version and variant is kept.** -/
theorem testBit_stamp (n : ℕ) {i : ℕ} (hi : i < 128) (hversion : i < 76 ∨ 80 ≤ i) (hvariant : i < 62 ∨ 64 ≤ i) :
    (stamp n).testBit i = n.testBit i := by
  have hfourth : 2 ^ 14 * 2 + n / 2 ^ 48 % 2 ^ 14 < 2 ^ 16 := by omega
  unfold stamp
  rw [Nat.testBit_two_pow_mul_add _ (Nat.mod_lt _ (by decide)), Nat.testBit_two_pow_mul_add _ hfourth,
    Nat.testBit_two_pow_mul_add _ (Nat.mod_lt _ (by decide)), Nat.testBit_two_pow_mul_add _ (Nat.mod_lt _ (by decide)),
    Nat.testBit_two_pow_mul_add _ (by decide : 4 < 2 ^ 4)]
  -- one case for each group of bits, the last one first
  by_cases hlast : i < 48
  · rw [if_pos hlast, Nat.testBit_mod_two_pow, decide_eq_true hlast, Bool.true_and]
  by_cases hthird : i < 64
  · rw [if_neg hlast, if_pos (by omega), if_pos (by omega), testBit_part (by omega), Nat.sub_add_cancel (by omega)]
  by_cases hsecond : i < 76
  · rw [if_neg hlast, if_neg (by omega), if_pos (by omega), testBit_part (by omega)]
    congr 1
    omega
  · rw [if_neg hlast, if_neg (by omega), if_neg (by omega), if_neg (by omega), testBit_part (by omega)]
    congr 1
    omega

/-! ## The text -/

/-- Digits in groups of the given sizes, with hyphens between them; the rest is the last group. -/
def grouped : (sizes : List ℕ) → (digits : List Char) → List Char
  | [], digits => digits
  | size :: sizes, digits => digits.take size ++ '-' :: grouped sizes (digits.drop size)

theorem grouped_append {size : ℕ} {front : List Char} (h : front.length = size) (sizes : List ℕ) (back : List Char) :
    grouped (size :: sizes) (front ++ back) = front ++ '-' :: grouped sizes back := by
  rw [grouped, List.take_left' h, List.drop_left' h]

/-- The digits of a stamped number in the groups of a UUID, of which the third starts with the version. -/
theorem hexDigits_stamp (n : ℕ) :
    hexDigits 32 (stamp n) =
      hexDigits 8 (n / 2 ^ 96 % 2 ^ 32) ++ (hexDigits 4 (n / 2 ^ 80 % 2 ^ 16) ++
        ((4 :: hexDigits 3 (n / 2 ^ 64 % 2 ^ 12)) ++ (hexDigits 4 (2 ^ 15 + n / 2 ^ 48 % 2 ^ 14) ++
          hexDigits 12 (n % 2 ^ 48)))) := by
  have hfront : hexDigits (8 + 4) (n / 2 ^ 80 % 2 ^ 48) =
      hexDigits 8 (n / 2 ^ 96 % 2 ^ 32) ++ hexDigits 4 (n / 2 ^ 80 % 2 ^ 16) := by
    have hsplit : n / 2 ^ 80 % 2 ^ 48 = 2 ^ 16 * (n / 2 ^ 96 % 2 ^ 32) + n / 2 ^ 80 % 2 ^ 16 := by omega
    rw [hsplit, hexDigits_pair (by decide) (Nat.mod_lt _ (by decide))]
  show hexDigits (8 + 4 + 1 + 3 + 4 + 12) (stamp n) = _
  rw [stamp, hexDigits_pair (by decide) (Nat.mod_lt _ (by decide)), hexDigits_pair (by decide) (by omega),
    hexDigits_pair (by decide) (Nat.mod_lt _ (by decide)), hexDigits_pair (by decide) (by decide), hfront]
  simp only [List.append_assoc]
  rfl

/-- **A UUID is a stamped number in hexadecimal digits.** -/
theorem uuid_eq (n : ℕ) : uuid n = grouped [8, 4, 4, 4] (row (hexDigits 32 (stamp n))) := by
  have hlength : ∀ {digits : List ℕ} {size : ℕ}, digits.length = size → (row digits).length = size := by
    rintro digits _ rfl
    exact length_row digits
  rw [hexDigits_stamp]
  simp only [row_append]
  rw [grouped_append (hlength (by simp)), grouped_append (hlength (by simp)), grouped_append (hlength (by simp)),
    grouped_append (hlength (by simp))]
  unfold uuid
  simp only [Nat.pow_eq]
  rw [paddedHex_eq (by decide) (by decide : 2 ^ 32 = 16 ^ 8) (Nat.mod_lt _ (by decide)),
    paddedHex_eq (by decide) (by decide : 2 ^ 16 = 16 ^ 4) (Nat.mod_lt _ (by decide)),
    paddedHex_eq (by decide) (by decide : 2 ^ 12 = 16 ^ 3) (Nat.mod_lt _ (by decide)),
    paddedHex_eq (by decide) (by decide : 2 ^ 16 = 16 ^ 4) (by omega),
    paddedHex_eq (by decide) (by decide : 2 ^ 48 = 16 ^ 12) (Nat.mod_lt _ (by decide))]
  rfl

/-- A text is a UUID of version 4 that shows a random number: 32 hexadecimal digits in lower case and in groups, which
tell version and variant, and of which all other bits are those of the number. -/
def IsUuid (n : ℕ) (text : List Char) : Prop :=
  ∃ digits : List Char, text = grouped [8, 4, 4, 4] digits ∧ digits.length = 32 ∧
    (∀ c ∈ digits, c ∈ "0123456789abcdef".toList) ∧ digits[12]? = some '4' ∧
    (∃ c ∈ ['8', '9', 'a', 'b'], digits[16]? = some c) ∧
    ∀ i < 128, (i < 62 ∨ 64 ≤ i) → (i < 76 ∨ 80 ≤ i) → (ofHex digits).testBit i = n.testBit i

/-- The first digit of the variant's group. -/
theorem digitChar_variant : ∀ d < 4, Nat.digitChar (8 + d) ∈ ['8', '9', 'a', 'b'] := by
  decide

/-- **Every number gives a UUID that shows it.** -/
theorem isUuid_uuid (n : ℕ) : IsUuid n (uuid n) := by
  refine ⟨row (hexDigits 32 (stamp n)), uuid_eq n, ?_, ?_, ?_, ?_, ?_⟩
  · rw [length_row, length_hexDigits]
  · intro c hc
    obtain ⟨d, hd, rfl⟩ := List.mem_map.mp hc
    exact digitChar_hexadecimal d (lt_of_mem_hexDigits hd)
  · have hversion : (hexDigits 32 (stamp n))[12]? = some 4 := by
      rw [hexDigits_stamp]
      rfl
    rw [row, List.getElem?_map, hversion]
    rfl
  · have hvariant : (hexDigits 32 (stamp n))[16]? = some (8 + n / 2 ^ 48 % 2 ^ 14 / 2 ^ 12) := by
      rw [hexDigits_stamp]
      show some ((2 ^ 15 + n / 2 ^ 48 % 2 ^ 14) / 16 / 16 / 16 % 16) = _
      congr 1
      omega
    rw [row, List.getElem?_map, hvariant]
    exact ⟨_, digitChar_variant _ (by omega), rfl⟩
  · intro i hi hvariant hversion
    rw [ofHex_row_hexDigits, Nat.mod_eq_of_lt (stamp_lt n), testBit_stamp n hi hversion hvariant]

end Generator

end Template
