import Template.Number.Reader
import Template.Proofs.Parts
import Template.Proofs.Rounding

/-!
# `Template.Proofs.Spelling` — which texts are numbers, and which numbers they are

A spelling is a number as it can be written: a sign, digits with a point between them, and an exponent (`Spelling`).
The reader takes a text apart from the front, and each of the parts that it finds is as long as it can be. So every
text falls into the parts of a spelling and a rest, and it is read as a number only if there is no rest.

## Contents
- `Sign`, `Exponent`, `Spelling` — how numbers are written.
- `Spelling.Means` — the numbers that are written so.
- `exists_parts`, `readUnsigned?_parts` — the parts of a text, and what is read from them.
- `Spelling.read?_text`, `exists_spelling` — the literals that are read are those of the spellings.
- `Spelling.value?_literal`, `Spelling.read_text` — what is made of them.
- `read_ascii_iff` — the texts that are read as numbers.
-/

namespace Template.Number

open Text

/-! ## Spellings -/

/-- What may stand in front of digits. -/
inductive Sign where
  /-- No sign. -/
  | missing
  /-- The sign `+`. -/
  | plus
  /-- The sign `-`. -/
  | minus

/-- How a sign is written. -/
def Sign.text : Sign → List Char
  | missing => []
  | plus => ['+']
  | minus => ['-']

/-- Whether what follows is below zero. -/
def Sign.negative : Sign → Bool
  | minus => true
  | _ => false

/-- `e` or `E`, and an integer with at least one digit. -/
structure Exponent where
  /-- The letter. -/
  letter : Char
  /-- The sign of the integer. -/
  sign : Sign
  /-- Its digits. -/
  digits : List ℕ
  isLetter : letter = 'e' ∨ letter = 'E'
  decimal : Decimal digits
  ne_nil : digits ≠ []

/-- How an exponent is written. -/
def Exponent.text (e : Exponent) : List Char :=
  e.letter :: (e.sign.text ++ row e.digits)

/-- The exponent as an integer. -/
def Exponent.value (e : Exponent) : ℤ :=
  signed e.sign.negative (ofDigits e.digits : ℤ)

/-- The point and the digits behind it, if there is a point. -/
def pointText : Option (List ℕ) → List Char
  | none => []
  | some digits => '.' :: row digits

/-- A number as it can be written: an optional sign, digits with an optional point between them, in front of them or
behind them, and an optional exponent. -/
structure Spelling where
  /-- The sign. -/
  sign : Sign
  /-- The digits in front of the point. -/
  whole : List ℕ
  /-- The digits behind the point, if there is one. -/
  fraction : Option (List ℕ)
  /-- The exponent. -/
  exponent : Option Exponent
  whole_decimal : Decimal whole
  fraction_decimal : Decimal (fraction.getD [])
  some_digit : whole ≠ [] ∨ fraction.getD [] ≠ []

namespace Spelling

/-- The text of a spelling. -/
def text (s : Spelling) : List Char :=
  s.sign.text ++ (row s.whole ++ (pointText s.fraction ++ s.exponent.elim [] Exponent.text))

/-- Whether there is a point or an exponent. -/
def Scaled (s : Spelling) : Prop :=
  s.fraction ≠ none ∨ s.exponent ≠ none

/-- The number that is written, without its sign. -/
def size (s : Spelling) : ℚ :=
  (ofDigits s.whole + ofDigits (s.fraction.getD []) / 10 ^ (s.fraction.getD []).length) *
    10 ^ s.exponent.elim 0 Exponent.value

/-- **The number that a spelling stands for.** Digits alone are the integer that they show. With a point or an exponent
it is the double nearest to what is written, as an integer if it is whole. -/
inductive Means (s : Spelling) : Number → Prop
  /-- An integer of any size. -/
  | exact : ¬s.Scaled → Means s (.integer (signed s.sign.negative (ofDigits s.whole : ℤ)))
  /-- A double that is whole. -/
  | whole {x : Magnitude} {i : ℤ} :
    s.Scaled → x.Rounds s.size → signed s.sign.negative x.value = i → Means s (.integer i)
  /-- A double that is not. -/
  | between {x : Magnitude} :
    s.Scaled → x.Rounds s.size → (∀ i : ℤ, signed s.sign.negative x.value ≠ i) →
      Means s (.real (.finite s.sign.negative x))

/-- The literal that is read from a spelling. -/
def literal (s : Spelling) : Literal :=
  match s.fraction, s.exponent with
  | none, none => .whole s.sign.negative s.whole
  | fraction, exponent =>
    .scaled s.sign.negative (s.whole ++ fraction.getD [])
      (exponent.elim 0 Exponent.value - (fraction.getD []).length)

end Spelling

/-! ## Digits -/

theorem digitValue?_digitChar : ∀ d < 10, digitValue? (Nat.digitChar d) = some d := by
  intro d hd
  rw [digitValue?, asciiDigit?_digitChar d hd]

/-- The characters of ASCII. -/
def Ascii (text : List Char) : Prop :=
  ∀ c ∈ text, c.toNat < 128

-- by going through the text, and not through all characters that there are
instance (text : List Char) : Decidable (Ascii text) :=
  decidable_of_iff (text.all (fun c => decide (c.toNat < 128)) = true) (by simp [Ascii])

theorem ascii_append {a b : List Char} : Ascii (a ++ b) ↔ Ascii a ∧ Ascii b := by
  unfold Ascii
  simp only [List.mem_append]
  exact ⟨fun h => ⟨fun c hc => h c (.inl hc), fun c hc => h c (.inr hc)⟩, fun h c hc => hc.elim (h.1 c) (h.2 c)⟩

/-- The digits of ASCII are those that numbers are written in. -/
theorem digitValue?_ascii {c : Char} (hc : c.toNat < 128) {d : ℕ} (h : digitValue? c = some d) :
    d < 10 ∧ c = Nat.digitChar d := by
  have hall : ∀ n < 128, (digitValue? (Char.ofNat n)).all
      (fun d => decide (d < 10) && Char.ofNat n == Nat.digitChar d) = true := by
    decide +kernel
  have hdigit := hall c.toNat hc
  rw [Char.ofNat_toNat, h, Option.all_some, Bool.and_eq_true, decide_eq_true_eq, beq_iff_eq] at hdigit
  exact hdigit

theorem digitValue?_point : digitValue? '.' = none := by decide

/-! ## Signs -/

theorem takeSign_text (sign : Sign) {body : List Char} (hminus : body.head? ≠ some '-')
    (hplus : body.head? ≠ some '+') : takeSign (sign.text ++ body) = (sign.negative, body) := by
  cases sign with
  | plus => rfl
  | minus => rfl
  | missing =>
    show takeSign body = (false, body)
    unfold takeSign
    split
    · exact absurd rfl hminus
    · exact absurd rfl hplus
    · rfl

/-- Every text has a sign in front, if only a missing one. -/
theorem exists_sign (text : List Char) :
    ∃ (sign : Sign) (body : List Char), text = sign.text ++ body ∧ takeSign text = (sign.negative, body) := by
  unfold takeSign
  split
  · exact ⟨.minus, _, rfl, rfl⟩
  · exact ⟨.plus, _, rfl, rfl⟩
  · exact ⟨.missing, _, rfl, rfl⟩

/-! ## Exponents -/

theorem head_row_ne_of_digit {digits : List ℕ} (h : Decimal digits) (hne : digits ≠ []) {c : Char}
    (hc : digitValue? c = none) (rest : List Char) : (row digits ++ rest).head? ≠ some c := by
  obtain ⟨d, digits, rfl⟩ := List.exists_cons_of_ne_nil hne
  intro hhead
  have hd := digitValue?_digitChar d (h d List.mem_cons_self)
  rw [Option.some.inj hhead, hc] at hd
  cases hd

theorem takeExponent?_text (e : Exponent) : takeExponent? e.text = some (e.value, []) := by
  have hrow : takeDigits digitValue? (row e.digits ++ []) = (e.digits, []) :=
    takeDigits_row_of digitValue?_digitChar e.decimal fun _ h => nomatch h
  have hhead : ∀ {c}, digitValue? c = none → (row e.digits ++ []).head? ≠ some c :=
    fun hc => head_row_ne_of_digit e.decimal e.ne_nil hc []
  rw [List.append_nil] at hrow hhead
  have hsign := takeSign_text e.sign (hhead (by decide)) (hhead (by decide))
  unfold takeExponent? Exponent.text
  dsimp only
  rw [if_pos e.isLetter, hsign]
  dsimp only
  rw [hrow, if_neg (by simpa using e.ne_nil)]
  rfl

/-- What is read as an exponent is one. -/
theorem exists_exponent {rest : List Char} (hascii : Ascii rest) {value : ℤ}
    (h : takeExponent? rest = some (value, [])) : ∃ e : Exponent, rest = e.text ∧ e.value = value := by
  cases rest with
  | nil => cases h
  | cons letter rest =>
    obtain ⟨sign, body, rfl, hsign⟩ := exists_sign rest
    have hbody : Ascii body := (ascii_append.mp fun c hc => hascii c (List.mem_cons_of_mem _ hc)).2
    obtain ⟨digits, rest, rfl, hdec, hrest⟩ := exists_row_takeDigits fun c hc d => digitValue?_ascii (hbody c hc)
    have hrow := takeDigits_row_of digitValue?_digitChar hdec hrest
    unfold takeExponent? at h
    dsimp only at h
    rw [hsign] at h
    dsimp only at h
    rw [hrow] at h
    split at h
    · rename_i hletter
      dsimp only at h
      split at h
      · cases h
      · rename_i hne
        cases h
        refine ⟨⟨letter, sign, digits, hletter, hdec, by simpa using hne⟩, ?_, rfl⟩
        rw [Exponent.text, List.append_nil]
    · cases h

/-! ## Parts -/

/-- The rest of a text does not go on with what was taken off its front: digits, or digits and a point. -/
def EndsParts (fraction : Option (List ℕ)) (rest : List Char) : Prop :=
  ∀ c, rest.head? = some c → digitValue? c = none ∧ (fraction = none → c ≠ '.')

/-- Every text starts with digits and a point, if only with none, and then goes on with something else. -/
theorem exists_parts {text : List Char} (hascii : Ascii text) :
    ∃ (whole : List ℕ) (fraction : Option (List ℕ)) (rest : List Char),
      text = row whole ++ (pointText fraction ++ rest) ∧ Decimal whole ∧ Decimal (fraction.getD []) ∧
        EndsParts fraction rest := by
  obtain ⟨whole, rest, rfl, hwhole, hrest⟩ := exists_row_takeDigits fun c hc d => digitValue?_ascii (hascii c hc)
  have hbehind : Ascii rest := (ascii_append.mp hascii).2
  by_cases hpoint : rest.head? = some '.'
  · obtain ⟨rest, rfl⟩ : ∃ tail, rest = '.' :: tail := ⟨rest.tail, (List.cons_head?_tail hpoint).symm⟩
    obtain ⟨digits, rest, rfl, hdec, hrest⟩ :=
      exists_row_takeDigits fun c hc d => digitValue?_ascii (hbehind c (List.mem_cons_of_mem _ hc))
    exact ⟨whole, some digits, rest, rfl, hwhole, hdec, fun c hc => ⟨hrest c hc, fun hnone => nomatch hnone⟩⟩
  · refine ⟨whole, none, rest, rfl, hwhole, decimal_nil, ?_⟩
    intro c hc
    refine ⟨hrest c hc, ?_⟩
    rintro - rfl
    exact hpoint hc

/-- What is read behind the sign, by its parts. -/
theorem readUnsigned?_parts (negative : Bool) {whole : List ℕ} {fraction : Option (List ℕ)} {rest : List Char}
    (hwhole : Decimal whole) (hfraction : Decimal (fraction.getD [])) (hrest : EndsParts fraction rest) :
    Literal.readUnsigned? negative (row whole ++ (pointText fraction ++ rest)) =
      if whole.isEmpty && (fraction.getD []).isEmpty then
        if [['i', 'n', 'f'], ['i', 'n', 'f', 'i', 'n', 'i', 't', 'y'], ['n', 'a', 'n']].contains
            (foldAscii (row whole ++ (pointText fraction ++ rest))) then
          some .word
        else none
      else if rest.isEmpty then
        if fraction.isSome then some (.scaled negative (whole ++ fraction.getD []) (-((fraction.getD []).length : ℤ)))
        else some (.whole negative whole)
      else match takeExponent? rest with
        | some (exponent, []) =>
          some (.scaled negative (whole ++ fraction.getD []) (exponent - (fraction.getD []).length))
        | _ => none := by
  unfold Literal.readUnsigned?
  cases fraction with
  | none =>
    have hrow := takeDigits_row_of digitValue?_digitChar hwhole fun c hc => (hrest c hc).1
    rw [pointText, List.nil_append, hrow]
    dsimp only
    split
    · exact absurd rfl ((hrest _ rfl).2 rfl)
    · rfl
  | some digits =>
    have hpoint : ∀ c, ('.' :: (row digits ++ rest)).head? = some c → digitValue? c = none := by
      rintro c ⟨⟩
      exact digitValue?_point
    have hrow := takeDigits_row_of digitValue?_digitChar hwhole hpoint
    have hbehind := takeDigits_row_of digitValue?_digitChar hfraction fun c hc => (hrest c hc).1
    rw [pointText, List.cons_append, hrow]
    rw [Option.getD_some] at hbehind
    simp only [hbehind]
    rfl

/-! ## Literals -/

theorem Exponent.digitValue?_letter (e : Exponent) : digitValue? e.letter = none ∧ e.letter ≠ '.' := by
  rcases e.isLetter with h | h
  · rw [h]
    decide
  · rw [h]
    decide

/-- Neither an exponent nor the end of a text belongs to what stands in front of it. -/
theorem endsParts_exponent (fraction : Option (List ℕ)) (exponent : Option Exponent) :
    EndsParts fraction (exponent.elim [] Exponent.text) := by
  cases exponent with
  | none => exact fun c hc => nomatch hc
  | some e =>
    rintro c ⟨⟩
    exact ⟨e.digitValue?_letter.1, fun _ => e.digitValue?_letter.2⟩

namespace Spelling

theorem isEmpty_digits (s : Spelling) : (s.whole.isEmpty && (s.fraction.getD []).isEmpty) = false := by
  rw [Bool.and_eq_false_iff]
  exact s.some_digit.imp List.isEmpty_eq_false_iff.mpr List.isEmpty_eq_false_iff.mpr

/-- What stands behind the sign starts with a digit or the point. -/
theorem head_unsigned (s : Spelling) {c : Char} (hdigit : digitValue? c = none) (hpoint : c ≠ '.')
    (rest : List Char) : (row s.whole ++ (pointText s.fraction ++ rest)).head? ≠ some c := by
  by_cases hwhole : s.whole = []
  · have hbehind := s.some_digit.resolve_left (not_not.mpr hwhole)
    cases hfraction : s.fraction with
    | none =>
      rw [hfraction] at hbehind
      exact absurd rfl hbehind
    | some digits =>
      rw [hwhole]
      exact fun hhead => hpoint (Option.some.inj hhead).symm
  · exact head_row_ne_of_digit s.whole_decimal hwhole hdigit _

/-- **A spelling is read as its literal.** -/
theorem read?_text (s : Spelling) : Literal.read? s.text = some s.literal := by
  have hparts := readUnsigned?_parts s.sign.negative s.whole_decimal s.fraction_decimal
    (endsParts_exponent s.fraction s.exponent)
  rw [s.isEmpty_digits] at hparts
  unfold Literal.read? text
  rw [takeSign_text s.sign (s.head_unsigned (by decide) (by decide) _) (s.head_unsigned (by decide) (by decide) _)]
  dsimp only
  rw [hparts]
  unfold literal
  rcases s.exponent with - | e
  · rcases s.fraction with - | digits
    · rfl
    · show some (Literal.scaled _ _ (-_)) = some (.scaled _ _ (0 - _))
      rw [Int.zero_sub]
  · have hne : ¬e.text.isEmpty = true := Bool.false_ne_true
    rw [Option.elim_some, if_neg Bool.false_ne_true, takeExponent?_text e, if_neg hne]
    rcases s.fraction with - | digits <;> rfl

end Spelling

/-- **Nothing but spellings is read**, apart from the words for numbers that are not finite. -/
theorem exists_spelling {text : List Char} (hascii : Ascii text) {literal : Literal}
    (h : Literal.read? text = some literal) (hword : literal ≠ .word) :
    ∃ s : Spelling, text = s.text ∧ s.literal = literal := by
  obtain ⟨sign, body, rfl, hsign⟩ := exists_sign text
  obtain ⟨whole, fraction, rest, rfl, hwhole, hfraction, hrest⟩ := exists_parts (ascii_append.mp hascii).2
  have hends : Ascii rest := (ascii_append.mp (ascii_append.mp (ascii_append.mp hascii).2).2).2
  unfold Literal.read? at h
  rw [hsign] at h
  dsimp only at h
  rw [readUnsigned?_parts sign.negative hwhole hfraction hrest] at h
  split at h
  · -- without a digit there is only a word
    split at h
    · cases h
      exact absurd rfl hword
    · cases h
  · rename_i hempty
    have hdigit : whole ≠ [] ∨ fraction.getD [] ≠ [] := by
      rw [Bool.and_eq_true, List.isEmpty_iff, List.isEmpty_iff, not_and_or] at hempty
      exact hempty
    split at h
    · rename_i hend
      rw [List.isEmpty_iff] at hend
      subst hend
      refine ⟨⟨sign, whole, fraction, none, hwhole, hfraction, hdigit⟩, rfl, ?_⟩
      cases fraction with
      | none =>
        cases h
        rfl
      | some digits =>
        cases h
        show Literal.scaled _ _ (0 - _) = .scaled _ _ (-_)
        rw [Int.zero_sub]
    · split at h
      · rename_i value hvalue
        obtain ⟨e, rfl, rfl⟩ := exists_exponent hends hvalue
        cases h
        exact ⟨⟨sign, whole, fraction, some e, hwhole, hfraction, hdigit⟩, rfl, by cases fraction <;> rfl⟩
      · cases h

/-! ## Values -/

theorem finite?_ofDecimal_eq_some_iff {negative : Bool} {digits : ℕ} {exponent : ℤ} {n : Number} :
    Literal.value?.finite? (Binary64.ofDecimal negative digits exponent) = some n ↔
      ∃ x : Magnitude, x.Rounds (digits * 10 ^ exponent) ∧ narrow (.finite negative x) = n := by
  simp only [← Magnitude.ofDecimal?_eq_some_iff]
  unfold Binary64.ofDecimal
  cases hread : Magnitude.ofDecimal? digits exponent with
  | none => exact ⟨fun h => (nomatch h), fun ⟨_, h, _⟩ => nomatch h⟩
  | some x =>
    have hfinite : Literal.value?.finite? (.finite negative x) = some (narrow (.finite negative x)) := rfl
    simp [hfinite]

namespace Spelling

/-- What is written is all its digits, with the point moved. -/
theorem size_eq (s : Spelling) :
    s.size = (ofDigits (s.whole ++ s.fraction.getD []) : ℕ) *
      10 ^ (s.exponent.elim 0 Exponent.value - (s.fraction.getD []).length : ℤ) := by
  have hten : (10 : ℚ) ≠ 0 := by norm_num
  rw [size, ofDigits_append, zpow_sub₀ hten, zpow_natCast]
  push_cast
  field_simp

theorem means_iff_of_not_scaled {s : Spelling} (h : ¬s.Scaled) {n : Number} :
    s.Means n ↔ .integer (signed s.sign.negative (ofDigits s.whole : ℤ)) = n := by
  constructor
  · rintro (_ | hscaled | hscaled)
    · rfl
    · exact absurd hscaled h
    · exact absurd hscaled h
  · rintro rfl
    exact .exact h

theorem means_iff_of_scaled {s : Spelling} (h : s.Scaled) {n : Number} :
    s.Means n ↔ ∃ x : Magnitude, x.Rounds s.size ∧ narrow (.finite s.sign.negative x) = n := by
  simp only [narrow_eq_iff]
  constructor
  · rintro (hnot | ⟨_, hrounds, hvalue⟩ | ⟨_, hrounds, hvalue⟩)
    · exact absurd h hnot
    · exact ⟨_, hrounds, .inl ⟨_, hvalue, rfl⟩⟩
    · exact ⟨_, hrounds, .inr ⟨hvalue, rfl⟩⟩
  · rintro ⟨x, hrounds, ⟨i, hvalue, rfl⟩ | ⟨hvalue, rfl⟩⟩
    · exact .whole h hrounds hvalue
    · exact .between h hrounds hvalue

/-- The literal of a spelling by whether there is a point or an exponent. -/
theorem literal_cases (s : Spelling) :
    (¬s.Scaled ∧ s.literal = .whole s.sign.negative s.whole) ∨
      (s.Scaled ∧ s.literal = .scaled s.sign.negative (s.whole ++ s.fraction.getD [])
        (s.exponent.elim 0 Exponent.value - (s.fraction.getD []).length)) := by
  unfold Scaled literal
  cases s.fraction with
  | none =>
    cases s.exponent with
    | none => exact .inl ⟨by simp, rfl⟩
    | some e => exact .inr ⟨.inr (Option.some_ne_none e), rfl⟩
  | some digits => exact .inr ⟨.inl (Option.some_ne_none digits), rfl⟩

/-- **What is made of the literal is the number that the spelling stands for**, if digits alone are not too many to be
read exactly. -/
theorem value?_literal {s : Spelling} (hlength : ¬s.Scaled → s.whole.length ≤ exactDigits) {n : Number} :
    s.literal.value? = some n ↔ s.Means n := by
  rcases s.literal_cases with ⟨hscaled, hliteral⟩ | ⟨hscaled, hliteral⟩
  · rw [hliteral, means_iff_of_not_scaled hscaled, Literal.value?,
      if_pos (hlength hscaled)]
    exact Option.some_inj
  · rw [hliteral, means_iff_of_scaled hscaled, Literal.value?, finite?_ofDecimal_eq_some_iff, s.size_eq]

end Spelling

/-! ## Texts -/

theorem read_false_eq_ok_iff {text : List Char} {n : Number} :
    read text false = .ok n ↔ ∃ literal, Literal.read? (trim text) = some literal ∧ literal.value? = some n := by
  unfold read
  dsimp only
  rw [Bool.and_false, if_neg Bool.false_ne_true]
  cases Literal.read? (trim text) with
  | none => exact ⟨fun h => (nomatch h), fun ⟨_, h, _⟩ => nomatch h⟩
  | some literal =>
    dsimp only
    cases hvalue : literal.value? with
    | none => simp [hvalue]
    | some m => simp [hvalue]

/-- Blanks alone are no number, unless they are taken for zero. -/
theorem read_blank {text : List Char} (h : text.all isBlank = true) :
    read text true = .ok (.integer 0) ∧ read text false = .error (.notNumber (String.ofList text)) := by
  unfold read
  rw [trim_of_all_blank h]
  exact ⟨rfl, rfl⟩

theorem read_true_of_not_blank {text : List Char} (h : ¬text.all isBlank = true) :
    read text true = read text false := by
  have hne : (trim text).isEmpty = false := by
    rw [List.isEmpty_eq_false_iff, ne_eq, trim_eq_nil_iff]
    exact h
  unfold read
  dsimp only
  rw [hne, Bool.false_and, Bool.false_and]

theorem read_true_eq_ok_iff {text : List Char} {n : Number} :
    read text true = .ok n ↔ (text.all isBlank = true ∧ n = .integer 0) ∨ read text false = .ok n := by
  by_cases h : text.all isBlank = true
  · obtain ⟨hzero, hfault⟩ := read_blank h
    rw [hzero, hfault]
    simp [h, eq_comm]
  · rw [read_true_of_not_blank h]
    simp [h]

/-- Between its blanks a text is not longer, and of the same characters. -/
theorem ascii_trim {text : List Char} (h : Ascii text) : Ascii (trim text) ∧ (trim text).length ≤ text.length := by
  obtain ⟨front, back, -, -, htext⟩ := exists_blanks_trim text
  rw [htext, ascii_append, ascii_append] at h
  refine ⟨h.1.2, ?_⟩
  have hlength := congrArg List.length htext
  rw [List.length_append, List.length_append] at hlength
  omega

namespace Spelling

/-- There is no blank in what is written. -/
theorem trim_text (s : Spelling) : trim s.text = s.text := by
  have hrow : ∀ {digits : List ℕ}, Decimal digits → (row digits).any isBlank = false := by
    intro digits h
    rw [row, List.any_map, List.any_eq_false]
    have hdigit : ∀ d < 10, ¬isBlank (Nat.digitChar d) = true := by decide
    exact fun d hd => hdigit d (h d hd)
  have hsign : ∀ sign : Sign, sign.text.any isBlank = false := by
    rintro (_ | _ | _) <;> decide
  have hpoint : (pointText s.fraction).any isBlank = false := by
    have hfraction := s.fraction_decimal
    cases hf : s.fraction with
    | none => rfl
    | some digits =>
      rw [hf] at hfraction
      exact hrow hfraction
  have hexponent : (s.exponent.elim [] Exponent.text).any isBlank = false := by
    cases s.exponent with
    | none => rfl
    | some e =>
      have hletter : isBlank e.letter = false := by
        rcases e.isLetter with h | h
        · rw [h]
          decide
        · rw [h]
          decide
      rw [Option.elim_some, Exponent.text, List.any_cons, List.any_append, hletter, hsign, hrow e.decimal]
      rfl
  apply trim_of_blankless
  rw [text, List.any_append, List.any_append, List.any_append, hsign, hrow s.whole_decimal, hpoint, hexponent]
  rfl

theorem length_whole_le (s : Spelling) : s.whole.length ≤ s.text.length := by
  rw [text, List.length_append, List.length_append, length_row]
  omega

/-- **A spelling is read as what it stands for**, whatever is made of blanks. -/
theorem read_text {s : Spelling} (hlength : ¬s.Scaled → s.whole.length ≤ exactDigits) (blankIsZero : Bool) {n : Number} :
    read s.text blankIsZero = .ok n ↔ s.Means n := by
  have hblank : ¬s.text.all isBlank = true := by
    rw [← trim_eq_nil_iff, s.trim_text]
    intro hnil
    have hread := s.read?_text
    rw [hnil] at hread
    cases hread
  have hread : read s.text blankIsZero = read s.text false := by
    cases blankIsZero with
    | false => rfl
    | true => exact read_true_of_not_blank hblank
  rw [hread, read_false_eq_ok_iff, s.trim_text, s.read?_text]
  simp [value?_literal hlength]

end Spelling

/-- **The texts that are read as numbers are the spellings with blanks around them**, and each is read as what it stands
for. -/
theorem read_ascii_iff {text : List Char} (hascii : Ascii text) (hlength : text.length ≤ 4300) :
    (∀ n, read text false = .ok n ↔ ∃ s : Spelling, trim text = s.text ∧ s.Means n) ∧
      ((∃ n, read text false = .ok n) ↔
        ∃ s : Spelling, trim text = s.text ∧ (s.Scaled → ∃ x : Magnitude, x.Rounds s.size)) ∧
      (∀ n, read text true = .ok n ↔ (text.all isBlank = true ∧ n = .integer 0) ∨ read text false = .ok n) ∧
      (text.all isBlank = true → ∃ fault, read text false = .error fault) := by
  obtain ⟨htrim, hle⟩ := ascii_trim hascii
  have hwhole : ∀ s : Spelling, trim text = s.text → ¬s.Scaled → s.whole.length ≤ exactDigits := by
    intro s hs _
    have hwhole := s.length_whole_le
    rw [← hs] at hwhole
    exact Nat.le_trans hwhole (Nat.le_trans hle hlength)
  have hread : ∀ n, read text false = .ok n ↔ ∃ s : Spelling, trim text = s.text ∧ s.Means n := by
    intro n
    rw [read_false_eq_ok_iff]
    constructor
    · rintro ⟨literal, hread, hvalue⟩
      obtain ⟨s, hs, rfl⟩ := exists_spelling htrim hread (by rintro rfl; cases hvalue)
      exact ⟨s, hs, (Spelling.value?_literal (hwhole s hs)).mp hvalue⟩
    · rintro ⟨s, hs, hmeans⟩
      exact ⟨s.literal, hs ▸ s.read?_text, (Spelling.value?_literal (hwhole s hs)).mpr hmeans⟩
  refine ⟨hread, ?_, fun n => read_true_eq_ok_iff, fun h => ⟨_, (read_blank h).2⟩⟩
  simp only [hread]
  constructor
  · rintro ⟨n, s, hs, hmeans⟩
    refine ⟨s, hs, fun hscaled => ?_⟩
    obtain ⟨x, hrounds, -⟩ := (Spelling.means_iff_of_scaled hscaled).mp hmeans
    exact ⟨x, hrounds⟩
  · rintro ⟨s, hs, hrounds⟩
    by_cases hscaled : s.Scaled
    · obtain ⟨x, hx⟩ := hrounds hscaled
      exact ⟨_, s, hs, (Spelling.means_iff_of_scaled hscaled).mpr ⟨x, hx, rfl⟩⟩
    · exact ⟨_, s, hs, .exact hscaled⟩

theorem read_ascii_iff_250 :
    Ascii " +2.5E2 ".toList ∧ " +2.5E2 ".toList.length ≤ 4300 ∧
      ∃ s : Spelling, trim " +2.5E2 ".toList = s.text ∧ s.Means (.integer 250) := by
  have hascii : Ascii " +2.5E2 ".toList := by decide +kernel
  have hlength : " +2.5E2 ".toList.length ≤ 4300 := by decide +kernel
  exact ⟨hascii, hlength, ((read_ascii_iff hascii hlength).1 _).mp (by decide +kernel)⟩

end Template.Number
