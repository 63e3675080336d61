import Mathlib.Algebra.Group.Nat.Defs
import Template.Text.Blank
import Template.Text.Digit

/-!
# `Template.Proofs.Numeral` — numbers written in decimal digits read back

A written number is a row of digits, and everything that is known about it is said of the values of these
digits: `exists_row_decimal` turns the text of a number into a row, `takeDigits_row` reads a row off the front
of a text, and `ofDigits_append` puts rows together.
-/

namespace Template.Text

/-- Digits by their values, written one after another. -/
def row (digits : List Nat) : List Char :=
  digits.map Nat.digitChar

/-- Every value is one of a decimal digit. -/
def Decimal (digits : List Nat) : Prop :=
  ∀ d ∈ digits, d < 10

/-! ## Rows of digits -/

theorem row_append (a b : List Nat) : row (a ++ b) = row a ++ row b :=
  List.map_append

theorem length_row (digits : List Nat) : (row digits).length = digits.length :=
  List.length_map _

theorem row_replicate_zero (k : Nat) : row (List.replicate k 0) = List.replicate k '0' :=
  List.map_replicate

theorem decimal_append {a b : List Nat} : Decimal (a ++ b) ↔ Decimal a ∧ Decimal b := by
  unfold Decimal
  constructor
  · intro h
    exact ⟨fun d hd => h d (List.mem_append_left b hd), fun d hd => h d (List.mem_append_right a hd)⟩
  · rintro ⟨ha, hb⟩ d hd
    exact (List.mem_append.mp hd).elim (ha d) (hb d)

theorem decimal_nil : Decimal [] := fun _ h => absurd h List.not_mem_nil

theorem decimal_replicate_zero (k : Nat) : Decimal (List.replicate k 0) := by
  intro d hd
  rw [List.eq_of_mem_replicate hd]
  decide

theorem asciiDigit?_digitChar : ∀ d < 10, asciiDigit? (Nat.digitChar d) = some d := by
  decide

/-- A row of digits is read off the front of a text that does not go on with another digit, whatever digits are known
besides. -/
theorem takeDigits_row_of {value? : Char → Option Nat} (hv : ∀ d < 10, value? (Nat.digitChar d) = some d)
    {digits : List Nat} (h : Decimal digits) {rest : List Char} (hr : ∀ c, rest.head? = some c → value? c = none) :
    takeDigits value? (row digits ++ rest) = (digits, rest) := by
  induction digits with
  | nil =>
    cases rest with
    | nil => rfl
    | cons c rest =>
      show takeDigits value? (c :: rest) = _
      rw [takeDigits, hr c rfl]
  | cons d digits ih =>
    have hrest := ih fun e he => h e (List.mem_cons_of_mem d he)
    show takeDigits value? (Nat.digitChar d :: (row digits ++ rest)) = _
    rw [takeDigits, hv d (h d List.mem_cons_self), hrest]

theorem takeDigits_row {digits : List Nat} (h : Decimal digits) {rest : List Char}
    (hr : ∀ c, rest.head? = some c → asciiDigit? c = none) :
    takeDigits asciiDigit? (row digits ++ rest) = (digits, rest) :=
  takeDigits_row_of asciiDigit?_digitChar h hr

/-- Every text is a row of digits, as long as it can be, and the rest. -/
theorem exists_row_takeDigits {value? : Char → Option Nat} {text : List Char}
    (hv : ∀ c ∈ text, ∀ d, value? c = some d → d < 10 ∧ c = Nat.digitChar d) :
    ∃ digits rest, text = row digits ++ rest ∧ Decimal digits ∧ ∀ c, rest.head? = some c → value? c = none := by
  induction text with
  | nil =>
    refine ⟨[], [], rfl, decimal_nil, ?_⟩
    rintro _ ⟨⟩
  | cons c text ih =>
    cases hc : value? c with
    | none =>
      refine ⟨[], c :: text, rfl, decimal_nil, ?_⟩
      rintro _ ⟨⟩
      exact hc
    | some d =>
      obtain ⟨hlt, rfl⟩ := hv c List.mem_cons_self d hc
      obtain ⟨digits, rest, rfl, hdec, hrest⟩ := ih fun c hc => hv c (List.mem_cons_of_mem _ hc)
      refine ⟨d :: digits, rest, rfl, ?_, hrest⟩
      intro e he
      rcases List.mem_cons.mp he with rfl | he
      · exact hlt
      · exact hdec e he

/-! ## The number that a row stands for -/

theorem ofDigits_from (start : Nat) (digits : List Nat) :
    digits.foldl (fun n d => 10 * n + d) start = start * 10 ^ digits.length + ofDigits digits := by
  induction digits generalizing start with
  | nil => simp [ofDigits]
  | cons d digits ih =>
    rw [ofDigits, List.foldl_cons, List.foldl_cons, ih, ih (10 * 0 + d), List.length_cons, Nat.pow_succ,
      Nat.add_mul, Nat.mul_zero, Nat.zero_add, Nat.mul_comm 10 start, Nat.mul_assoc,
      Nat.mul_comm 10 (10 ^ digits.length), Nat.add_assoc]

theorem ofDigits_append (a b : List Nat) : ofDigits (a ++ b) = ofDigits a * 10 ^ b.length + ofDigits b := by
  rw [ofDigits, List.foldl_append, ofDigits_from]
  rfl

theorem ofDigits_replicate_zero (k : Nat) : ofDigits (List.replicate k 0) = 0 := by
  induction k with
  | zero => rfl
  | succ k ih =>
    rw [List.replicate_succ', ofDigits_append, ih]
    rfl

theorem ofDigits_zeros_append (k : Nat) (digits : List Nat) :
    ofDigits (List.replicate k 0 ++ digits) = ofDigits digits := by
  rw [ofDigits_append, ofDigits_replicate_zero, Nat.zero_mul, Nat.zero_add]

/-! ## Written numbers -/

theorem decimal_of_lt {n : Nat} (h : n < 10) : decimal n = row [n] :=
  Nat.toDigits_of_lt_base h

theorem decimal_of_le {n : Nat} (h : 10 ≤ n) : decimal n = decimal (n / 10) ++ row [n % 10] :=
  Nat.toDigits_of_base_le (by decide) h

/-- **A written number is the row of its digits**, which does not start with a zero unless it is one. -/
theorem exists_row_decimal (n : Nat) :
    ∃ digits, decimal n = row digits ∧ Decimal digits ∧ ofDigits digits = n ∧ digits ≠ [] ∧
      (0 < n → digits.head? ≠ some 0) := by
  induction n using Nat.strongRecOn with
  | _ n ih =>
    by_cases hlt : n < 10
    · refine ⟨[n], decimal_of_lt hlt, ?_, Nat.zero_add n, List.cons_ne_nil _ _, ?_⟩
      · intro d hd
        rwa [List.mem_singleton.mp hd]
      · rintro hpos ⟨⟩
        exact absurd hpos (Nat.lt_irrefl 0)
    · -- the last digit stands behind those of a tenth of the number
      obtain ⟨digits, hrow, hdec, hval, hne, hhead⟩ := ih (n / 10) (by omega)
      have hlast : Decimal [n % 10] := by
        intro d hd
        rw [List.mem_singleton.mp hd]
        exact Nat.mod_lt n (by decide)
      refine ⟨digits ++ [n % 10], ?_, decimal_append.mpr ⟨hdec, hlast⟩, ?_, by simp, ?_⟩
      · rw [decimal_of_le (by omega), hrow, row_append]
      · rw [ofDigits_append, hval]
        show n / 10 * 10 + (10 * 0 + n % 10) = n
        omega
      · intro _
        cases digits with
        | nil => exact absurd rfl hne
        | cons first digits => exact hhead (by omega)

/-- A number in at least so many digits is a row as well. -/
theorem exists_row_padded (width n : Nat) :
    ∃ digits, padded width n = row digits ∧ Decimal digits ∧ ofDigits digits = n ∧ digits ≠ [] := by
  obtain ⟨digits, hrow, hdec, hval, hne, -⟩ := exists_row_decimal n
  refine ⟨List.replicate (width - digits.length) 0 ++ digits, ?_, ?_, ?_, by simp [hne]⟩
  · rw [padded, hrow, length_row, row_append, row_replicate_zero]
  · exact decimal_append.mpr ⟨decimal_replicate_zero _, hdec⟩
  · rw [ofDigits_zeros_append, hval]

/-! ## How many digits there are -/

theorem decimalLength_mul_ten {n : Nat} (h : 0 < n) : decimalLength (n * 10) = decimalLength n + 1 := by
  rw [decimalLength, decimalLength, if_neg (by omega), if_neg (by omega), decimal_of_le (by omega),
    Nat.mul_div_cancel n (by decide), List.length_append]
  rfl

theorem decimalLength_mul_pow {n : Nat} (h : 0 < n) (k : Nat) :
    decimalLength (n * 10 ^ k) = decimalLength n + k := by
  induction k with
  | zero => rw [Nat.pow_zero, Nat.mul_one]; rfl
  | succ k ih =>
    rw [Nat.pow_succ, ← Nat.mul_assoc, decimalLength_mul_ten (Nat.mul_pos h (Nat.pow_pos (by decide))), ih]
    rfl

theorem decimalLength_le_iff {n k : Nat} (hk : 0 < k) : decimalLength n ≤ k ↔ n < 10 ^ k := by
  unfold decimalLength
  split
  · rename_i h
    rw [h]
    exact iff_of_true (Nat.zero_le k) (Nat.pow_pos (by decide))
  · exact Nat.length_toDigits_le_iff (by decide) hk

/-- A number lies between the powers of ten that its length names. -/
theorem decimalLength_bounds {n : Nat} (h : 0 < n) :
    0 < decimalLength n ∧ 10 ^ (decimalLength n - 1) ≤ n ∧ n < 10 ^ decimalLength n := by
  have hpos : 0 < decimalLength n := by
    rw [decimalLength, if_neg (Nat.ne_of_gt h)]
    exact Nat.length_toDigits_pos
  refine ⟨hpos, ?_, (decimalLength_le_iff hpos).mp (Nat.le_refl _)⟩
  rcases Nat.eq_zero_or_pos (decimalLength n - 1) with hone | hmore
  · rw [hone, Nat.pow_zero]
    exact h
  · rw [← Nat.not_lt, ← decimalLength_le_iff hmore]
    omega

/-! ## Zeros at the end -/

/-- Trailing zeros that are dropped from a row are a power of ten. -/
theorem exists_row_dropEnd {digits : List Nat} (h : Decimal digits) :
    ∃ kept k, digits = kept ++ List.replicate k 0 ∧ dropEnd (· == '0') (row digits) = row kept := by
  unfold dropEnd
  have hsplit := List.takeWhile_append_dropWhile (p := (· == '0')) (l := (row digits).reverse)
  have hback := congrArg List.reverse hsplit
  rw [List.reverse_append, List.reverse_reverse] at hback
  -- the text is split, and so are the digits that it was written from
  obtain ⟨kept, zeros, rfl, hkept, hzeros⟩ := List.map_eq_append_iff.mp hback.symm
  refine ⟨kept, zeros.length, ?_, hkept.symm⟩
  rw [List.append_cancel_left_eq, List.eq_replicate_iff]
  refine ⟨rfl, ?_⟩
  intro d hd
  have hmem : Nat.digitChar d ∈ ((row (kept ++ zeros)).reverse.takeWhile (· == '0')).reverse := by
    rw [← hzeros]
    exact List.mem_map_of_mem hd
  have hzero := List.all_eq_true.mp List.all_takeWhile _ (List.mem_reverse.mp hmem)
  rwa [beq_iff_eq, Nat.digitChar_eq_zero] at hzero

end Template.Text
