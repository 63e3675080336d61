import Template.Proofs.NumberText
import Template.Proofs.Spelling
import Template.Transform

/-!
# `Template.Proofs.PlainNumber` — numbers in running text read back

Text for reading has fewer kinds of numbers than a document: a double that is whole and below 10 ^ 21 is written as an
integer, and a double that is whole is read as an integer, however it is written. So a number may come back as one of
another kind, but its value is the same. Each layout of a double is a spelling of the decimal that was written, and
the double is the one nearest to that decimal.

## Contents
- `Writes` — a text is a spelling with a point or an exponent, of a given number.
- `writes_positional`, `writes_scientific` — the layouts.
- `exists_spelling_plain` — what is written is a spelling of a number of the same value.
- `toNumber_toText` — a number made into text and back.
-/

namespace Template.Number

open Text
open Template.Json (Significant exists_pointed exists_significant leading_zero minus)

/-! ## Layouts -/

/-- The sign that is written in front of a number. -/
def signOf (negative : Bool) : Sign :=
  if negative then .minus else .missing

@[simp]
theorem signOf_text (negative : Bool) : (signOf negative).text = minus negative := by
  cases negative <;> rfl

@[simp]
theorem signOf_negative (negative : Bool) : (signOf negative).negative = negative := by
  cases negative <;> rfl

/-- The text spells a number of this sign and size, with a point or an exponent. -/
def Writes (text : List Char) (negative : Bool) (size : ℚ) : Prop :=
  ∃ s : Spelling, s.text = text ∧ s.sign.negative = negative ∧ s.Scaled ∧ s.size = size

/-- Zeros at the end of the digits are as good as in the exponent. -/
theorem size_mul_pow (digits k : ℕ) (place : ℤ) :
    ((digits * 10 ^ k : ℕ) : ℚ) * 10 ^ place = digits * 10 ^ (place + k) := by
  rw [zpow_add₀ (by norm_num), zpow_natCast]
  push_cast
  ring

/-- Digits with a point among them. -/
theorem writes_pointed {whole fraction : List ℕ} (hw : Decimal whole) (hne : whole ≠ []) (hf : Decimal fraction)
    (negative : Bool) :
    Writes (minus negative ++ (row whole ++ '.' :: row fraction)) negative
      (ofDigits (whole ++ fraction) * 10 ^ (-(fraction.length : ℤ))) := by
  refine ⟨⟨signOf negative, whole, some fraction, none, hw, hf, .inl hne⟩, ?_, signOf_negative negative, .inl (Option.some_ne_none _), ?_⟩
  · simp [Spelling.text, pointText]
  · simp [Spelling.size_eq]

/-- Positional notation spells the digits with the point at its place. -/
theorem writes_positional {shown : List ℕ} (hs : Significant shown) (point : ℤ) (negative : Bool) :
    Writes (minus negative ++ positional (row shown) point) negative
      (ofDigits shown * 10 ^ (point - shown.length)) := by
  obtain ⟨whole, fraction, zeros, h⟩ := exists_pointed hs point
  have hwrites := writes_pointed h.leading.decimal h.leading.ne_nil h.decimal negative
  rwa [← h.text_eq, h.digits, size_mul_pow, neg_add_eq_sub, h.place] at hwrites

/-- The exponent of a double is written with a sign and at least two digits. -/
theorem exists_exponent_padded (place : ℤ) :
    ∃ e : Exponent, e.text = 'e' :: (if place < 0 then '-' else '+') :: padded 2 place.natAbs ∧ e.value = place := by
  obtain ⟨digits, hrow, hdec, hval, hne⟩ := exists_row_padded 2 place.natAbs
  by_cases hneg : place < 0
  · refine ⟨⟨'e', .minus, digits, .inl rfl, hdec, hne⟩, by simp [Exponent.text, Sign.text, hneg, hrow], ?_⟩
    show -(ofDigits digits : ℤ) = place
    omega
  · refine ⟨⟨'e', .plus, digits, .inl rfl, hdec, hne⟩, by simp [Exponent.text, Sign.text, hneg, hrow], ?_⟩
    show (ofDigits digits : ℤ) = place
    omega

/-- Exponent notation spells the digits with the exponent behind the first of them. -/
theorem writes_scientific {shown : List ℕ} (hs : Significant shown) (point : ℤ) (negative : Bool) :
    Writes (minus negative ++ scientific (row shown) point) negative (ofDigits shown * 10 ^ (point - shown.length)) := by
  obtain ⟨e, htext, hvalue⟩ := exists_exponent_padded (point - 1)
  obtain ⟨first, others, rfl⟩ := List.exists_cons_of_ne_nil hs.ne_nil
  have hfirst : Decimal [first] := fun d hd => hs.decimal d (List.mem_singleton.mp hd ▸ List.mem_cons_self)
  have hothers : Decimal others := fun d hd => hs.decimal d (List.mem_cons_of_mem first hd)
  unfold scientific
  dsimp only
  rw [← htext]
  cases others with
  | nil =>
    refine ⟨⟨signOf negative, [first], none, some e, hfirst, decimal_nil, .inl (List.cons_ne_nil _ _)⟩, ?_,
      signOf_negative negative, .inr (Option.some_ne_none _), ?_⟩
    · simp [Spelling.text, pointText, row]
    · simp [Spelling.size_eq, hvalue]
  | cons second others =>
    refine ⟨⟨signOf negative, [first], some (second :: others), some e, hfirst, hothers, .inl (List.cons_ne_nil _ _)⟩,
      ?_, signOf_negative negative, .inl (Option.some_ne_none _), ?_⟩
    · simp [Spelling.text, pointText, row]
    · have hplace : point - 1 - ((second :: others).length : ℤ) = point - (first :: second :: others).length := by
        rw [List.length_cons (a := first)]
        omega
      rw [Spelling.size_eq]
      dsimp only [Option.elim_some, Option.getD_some]
      rw [hvalue, hplace, List.singleton_append]

/-- **A double in running text is a spelling of a decimal that it is nearest to.** -/
theorem exists_writes_text (negative : Bool) (x : Magnitude) :
    ∃ size, Writes (minus negative ++ x.text) negative size ∧ x.Rounds size := by
  unfold Magnitude.text
  split
  · rename_i hzero
    have hwrites := writes_pointed leading_zero.decimal leading_zero.ne_nil leading_zero.decimal negative
    refine ⟨_, hwrites, Magnitude.ofDecimal?_eq_some_iff.mp ?_⟩
    rw [Magnitude.eq_zero_of_significand hzero]
    rfl
  · rename_i hpos
    obtain ⟨shown, hs, hdigits, hvalue⟩ := exists_significant hpos
    have hread : Magnitude.ofDecimal? (ofDigits shown)
        ((significantDigits x.shortest.1 x.shortest.2).2 - shown.length) = some x := by
      have hvalue := hvalue false
      unfold Binary64.ofDecimal at hvalue
      split at hvalue
      · rename_i hsome
        cases hvalue
        exact hsome
      · cases hvalue
    have hrounds := Magnitude.ofDecimal?_eq_some_iff.mp hread
    dsimp only
    rw [hdigits]
    split
    · exact ⟨_, writes_positional hs _ negative, hrounds⟩
    · exact ⟨_, writes_scientific hs _ negative, hrounds⟩

/-! ## Numbers -/

theorem integer_eq (i : ℤ) : Text.integer i = minus (decide (i < 0)) ++ decimal i.natAbs := by
  cases i with
  | ofNat n => rfl
  | negSucc n =>
    rw [decide_eq_true (Int.negSucc_lt_zero n)]
    rfl

theorem signed_natAbs (i : ℤ) : signed (decide (i < 0)) (i.natAbs : ℤ) = i := by
  unfold signed
  split
  · rename_i hneg
    rw [decide_eq_true_eq] at hneg
    omega
  · rename_i hneg
    rw [decide_eq_true_eq] at hneg
    omega

/-- An integer is spelled by its digits, which are few enough to be read exactly if it is small enough. -/
theorem exists_spelling_integer {i : ℤ} (h : i.natAbs < 10 ^ exactDigits) :
    ∃ s : Spelling, s.text = Text.integer i ∧ s.Means (.integer i) ∧ s.whole.length ≤ exactDigits := by
  obtain ⟨digits, hrow, hdec, hval, hne, -⟩ := exists_row_decimal i.natAbs
  let s : Spelling := ⟨signOf (decide (i < 0)), digits, none, none, hdec, decimal_nil, .inl hne⟩
  have hscaled : ¬s.Scaled := fun h => h.elim (absurd rfl) (absurd rfl)
  refine ⟨s, ?_, ?_, ?_⟩
  · simp [s, Spelling.text, pointText, integer_eq, hrow]
  · rw [Spelling.means_iff_of_not_scaled hscaled]
    show Number.integer (signed (signOf _).negative (ofDigits digits : ℤ)) = .integer i
    rw [signOf_negative, hval, signed_natAbs]
  · show digits.length ≤ exactDigits
    rw [← length_row, ← hrow]
    exact (Nat.length_toDigits_le_iff (by decide) (by decide)).mpr h

/-- A double that is read as an integer has the same value, and one that is whole is read as one. -/
theorem value?_narrow (negative : Bool) (x : Magnitude) :
    (narrow (.finite negative x)).value? = some (signed negative x.value) ∧
      ∀ i : ℤ, signed negative x.value = i → narrow (.finite negative x) = .integer i := by
  rcases narrow_eq_iff.mp (Eq.refl (narrow (.finite negative x))) with ⟨i, hvalue, hread⟩ | ⟨hvalue, hread⟩
  · rw [hread, hvalue]
    exact ⟨rfl, fun j hj => by rw [Int.cast_inj.mp hj]⟩
  · rw [hread]
    exact ⟨rfl, fun i hi => absurd hi (hvalue i)⟩

theorem floor_lt_of_isBelow {x : Magnitude} {n : ℕ} (h : x.isBelow n = true) : x.floor < n :=
  (Nat.div_lt_iff_lt_mul unitsPerOne_pos).mpr (of_decide_eq_true h)

/-- A double that is written as an integer equals that integer, which is not large. -/
theorem of_smallWhole? {negative : Bool} {x : Magnitude} {i : ℤ} (h : smallWhole? (.finite negative x) = some i) :
    signed negative x.value = i ∧ i.natAbs < 10 ^ exactDigits := by
  unfold smallWhole? at h
  dsimp only at h
  split at h
  · rename_i hbelow
    refine ⟨toInt?_eq_some_iff.mp h, ?_⟩
    have hfloor : x.floor < 10 ^ 21 := floor_lt_of_isBelow hbelow
    have hmany : 10 ^ 21 ≤ 10 ^ exactDigits := pow_le_pow_right₀ (by decide) (by decide)
    have hnatAbs : i.natAbs = x.floor := by
      unfold Binary64.toInt? at h
      dsimp only at h
      split at h
      · cases h
        split
        · exact Int.natAbs_neg _
        · rfl
      · cases h
    rw [hnatAbs]
    exact Nat.lt_of_lt_of_le hfloor hmany
  · cases h

/-- **What is written for a number is a spelling of a number of the same value**, which is an integer if it can be. -/
theorem exists_spelling_plain {n : Number} {q : ℚ} (hvalue : n.value? = some q)
    (hdigits : ∀ i, n = .integer i → i.natAbs < 10 ^ exactDigits) :
    ∃ (s : Spelling) (m : Number), s.text = n.plain ∧ s.Means m ∧ m.value? = some q ∧ (∀ i : ℤ, q = i → m = .integer i) ∧
      (¬s.Scaled → s.whole.length ≤ exactDigits) := by
  have hinteger : ∀ {i : ℤ}, i.natAbs < 10 ^ exactDigits → n.plain = Text.integer i → q = i →
      ∃ (s : Spelling) (m : Number), s.text = n.plain ∧ s.Means m ∧ m.value? = some q ∧
        (∀ i : ℤ, q = i → m = .integer i) ∧ (¬s.Scaled → s.whole.length ≤ exactDigits) := by
    rintro i hi hplain rfl
    obtain ⟨s, htext, hmeans, hlength⟩ := exists_spelling_integer hi
    exact ⟨s, .integer i, htext.trans hplain.symm, hmeans, rfl, fun j hj => by rw [Int.cast_inj.mp hj], fun _ => hlength⟩
  cases n with
  | integer i => exact hinteger (hdigits i rfl) rfl (Option.some.inj hvalue).symm
  | real y =>
    cases y with
    | nan => cases hvalue
    | infinite negative => cases hvalue
    | finite negative x =>
      have hq : signed negative x.value = q := Option.some.inj hvalue
      cases hsmall : smallWhole? (.finite negative x) with
      | some i =>
        obtain ⟨hi, hlt⟩ := of_smallWhole? hsmall
        refine hinteger hlt ?_ (hq.symm.trans hi)
        unfold plain
        dsimp only
        rw [hsmall]
      | none =>
        obtain ⟨size, ⟨s, htext, hsign, hscaled, rfl⟩, hrounds⟩ := exists_writes_text negative x
        obtain ⟨hm, hwhole⟩ := value?_narrow negative x
        have hplain : (Number.real (.finite negative x)).plain = minus negative ++ x.text := by
          unfold plain
          dsimp only
          rw [hsmall]
          rfl
        have hmeans : s.Means (narrow (.finite negative x)) :=
          (Spelling.means_iff_of_scaled hscaled).mpr ⟨x, hrounds, by rw [hsign]⟩
        rw [hq] at hm hwhole
        exact ⟨s, _, htext.trans hplain.symm, hmeans, hm, hwhole, fun hnot => absurd hscaled hnot⟩

/-- **A number made into text and back keeps its value**, and it is an integer afterwards if it can be. -/
theorem toNumber_toText {n : Number} {q : ℚ} (hvalue : n.value? = some q)
    (hdigits : ∀ i, n = .integer i → i.natAbs < 10 ^ exactDigits) (textParams numberParams : List String) :
    ∃ (text : String) (m : Number),
      Transform.toText.apply (.number n) textParams = .ok (.value (.string text)) ∧
        Transform.toNumber.apply (.string text) numberParams = .ok (.value (.number m)) ∧
        m.value? = some q ∧ (∀ i : ℤ, q = i → m = .integer i) ∧ ∀ blankIsZero, read n.plain blankIsZero = .ok m := by
  obtain ⟨s, m, htext, hmeans, hm, hwhole, hlength⟩ := exists_spelling_plain hvalue hdigits
  have hread : ∀ blankIsZero, read n.plain blankIsZero = .ok m :=
    fun blankIsZero => htext ▸ (Spelling.read_text hlength blankIsZero).mpr hmeans
  refine ⟨String.ofList n.plain, m, rfl, ?_, hm, hwhole, hread⟩
  show (Transform.asNumber (.string (String.ofList n.plain))).map Outcome.value = _
  unfold Transform.asNumber
  dsimp only
  rw [String.toList_ofList, hread true]
  rfl

/-- The double 10 ^ 22, which is written with an exponent. -/
def tenTo22 : Magnitude := ⟨2 * 5 ^ 22, 1095, by decide, by decide, .inr (by decide)⟩

theorem toNumber_toText_tenTo22 :
    (Number.real (.finite false tenTo22)).value? = some ((10 ^ 22 : ℤ) : ℚ) ∧
      (∀ i, Number.real (.finite false tenTo22) = .integer i → i.natAbs < 10 ^ exactDigits) ∧
      ∃ text, Transform.toText.apply (.number (.real (.finite false tenTo22))) [] = .ok (.value (.string text)) ∧
        Transform.toNumber.apply (.string text) [] = .ok (.value (.number (.integer (10 ^ 22)))) := by
  have hwhole : (Binary64.finite false tenTo22).toInt? = some (10 ^ 22) := by decide +kernel
  have hvalue : (Number.real (.finite false tenTo22)).value? = some ((10 ^ 22 : ℤ) : ℚ) :=
    congrArg some (toInt?_eq_some_iff.mp hwhole)
  have hdigits : ∀ i, Number.real (.finite false tenTo22) = .integer i → i.natAbs < 10 ^ exactDigits := nofun
  obtain ⟨text, m, htext, hnumber, -, hm, -⟩ := toNumber_toText hvalue hdigits [] []
  exact ⟨hvalue, hdigits, text, htext, hm _ rfl ▸ hnumber⟩

end Template.Number
