import Template.Json.Reader
import Template.Proofs.Shortest

/-!
# `Template.Proofs.NumberText` — numbers of a document read back

Every number is read back from the text that a document has for it (`readValue_number`). An integer is a row
of digits. A double is written with its shortest digits in one of four layouts, three of which have a point
among the digits (`Pointed`). The reader puts the digits and the exponent together again, up to zeros that may stand
on either side; the rest is the property of the shortest digits (`ofDecimal?_shortest`).
-/

namespace Template.Json

open Text Number

/-- The text does not go on with anything that belongs to a number. -/
def EndsNumber (rest : List Char) : Prop :=
  ∀ c, rest.head? = some c → asciiDigit? c = none ∧ c ≠ '.' ∧ c ≠ 'e' ∧ c ≠ 'E'

/-- A sign, if there is one. -/
def minus (negative : Bool) : List Char :=
  if negative then ['-'] else []

/-! ## The parts of a number -/

theorem digitChar_ne {c : Char} (h : asciiDigit? c = none) {d : Nat} (hd : d < 10) :
    Nat.digitChar d ≠ c := by
  rintro rfl
  rw [asciiDigit?_digitChar d hd] at h
  cases h

/-- The digits before the point: there is no zero in front of other digits. -/
theorem takeWhole_row {whole : List Nat} (hd : Decimal whole) (hne : whole ≠ [])
    (hz : whole = [0] ∨ whole.head? ≠ some 0) {rest : List Char}
    (hr : ∀ c, rest.head? = some c → asciiDigit? c = none) :
    takeWhole (row whole ++ rest) = some (whole, rest) := by
  rcases hz with rfl | hz
  · rfl
  · obtain ⟨d, digits, rfl⟩ := List.exists_cons_of_ne_nil hne
    have htake := takeDigits_row hd hr
    have hzero : Nat.digitChar d ≠ '0' := by
      rw [ne_eq, Nat.digitChar_eq_zero]
      rintro rfl
      exact hz rfl
    unfold takeWhole
    split
    · rename_i htext
      exact absurd (List.cons.inj htext).1 hzero
    · rw [htake]

theorem takeFraction_row {digits : List Nat} (hd : Decimal digits) (hne : digits ≠ []) {rest : List Char}
    (hr : ∀ c, rest.head? = some c → asciiDigit? c = none) :
    takeFraction ('.' :: (row digits ++ rest)) = some (digits, rest) := by
  obtain ⟨d, digits, rfl⟩ := List.exists_cons_of_ne_nil hne
  rw [takeFraction, takeDigits_row hd hr]

theorem takeFraction_eq_none {rest : List Char} (h : ∀ c, rest.head? = some c → c ≠ '.') :
    takeFraction rest = none := by
  unfold takeFraction
  split
  · exact absurd rfl (h _ rfl)
  · rfl

theorem takeExponent_eq_none {rest : List Char} (h : ∀ c, rest.head? = some c → c ≠ 'e' ∧ c ≠ 'E') :
    takeExponent rest = none := by
  cases rest with
  | nil => rfl
  | cons c rest =>
    obtain ⟨he, hE⟩ := h c rfl
    unfold takeExponent
    dsimp only
    rw [if_neg (by simp [he, hE])]

theorem takeExponent_row {digits : List Nat} (hd : Decimal digits) (hne : digits ≠ []) {rest : List Char}
    (hr : ∀ c, rest.head? = some c → asciiDigit? c = none) (negative : Bool) :
    takeExponent ('e' :: (if negative then '-' else '+') :: (row digits ++ rest)) =
      some (if negative then -(ofDigits digits : Int) else ofDigits digits, rest) := by
  obtain ⟨d, digits, rfl⟩ := List.exists_cons_of_ne_nil hne
  have htake := takeDigits_row hd hr
  cases negative with
  | true =>
    show takeExponent ('e' :: '-' :: (row (d :: digits) ++ rest)) = _
    simp [takeExponent, htake]
  | false =>
    show takeExponent ('e' :: '+' :: (row (d :: digits) ++ rest)) = _
    simp [takeExponent, htake]

/-! ## Numbers by their parts -/

theorem readNumber?_minus (negative : Bool) {body : List Char} (h : body.head? ≠ some '-') :
    readNumber? (minus negative ++ body) =
      match takeWhole body with
      | none => none
      | some (whole, rest) =>
        match takeFraction rest, takeExponent ((takeFraction rest).elim rest (·.2)) with
        | none, none =>
          let n : Int := ofDigits whole
          some (.integer (if negative then -n else n), rest)
        | fraction, exponent =>
          let fractionDigits := fraction.elim [] (·.1)
          let rest := (exponent.map (·.2)).getD (fraction.elim rest (·.2))
          let digits := ofDigits (whole ++ fractionDigits)
          let place := exponent.elim 0 (·.1) - fractionDigits.length
          some (.real (.ofDecimal negative digits place), rest) := by
  cases negative with
  | true => rfl
  | false =>
    cases body with
    | nil => rfl
    | cons c body =>
      have hc : c ≠ '-' := fun hc => h (congrArg some hc)
      show readNumber? (c :: body) = _
      unfold readNumber?
      split
      rename_i hmatch
      split at hmatch
      · rename_i htext
        exact absurd (List.cons.inj htext).1 hc
      · cases hmatch
        rfl

theorem head_row_ne {digits : List Nat} (hd : Decimal digits) (hne : digits ≠ []) {c : Char}
    (hc : asciiDigit? c = none) (rest : List Char) : (row digits ++ rest).head? ≠ some c := by
  obtain ⟨d, digits, rfl⟩ := List.exists_cons_of_ne_nil hne
  exact fun h => digitChar_ne hc (hd d List.mem_cons_self) (Option.some.inj h)

/-- A row of digits without zeros in front, unless it is one: what stands before the point. -/
structure Leading (whole : List Nat) : Prop where
  decimal : Decimal whole
  ne_nil : whole ≠ []
  zero : whole = [0] ∨ whole.head? ≠ some 0

theorem Leading.take {whole : List Nat} (hw : Leading whole) {rest : List Char}
    (hr : ∀ c, rest.head? = some c → asciiDigit? c = none) :
    takeWhole (row whole ++ rest) = some (whole, rest) :=
  takeWhole_row hw.decimal hw.ne_nil hw.zero hr

theorem Leading.head {whole : List Nat} (hw : Leading whole) (rest : List Char) :
    (row whole ++ rest).head? ≠ some '-' :=
  head_row_ne hw.decimal hw.ne_nil (by decide) rest

/-- Digits alone are an integer. -/
theorem readNumber?_whole {whole : List Nat} (hw : Leading whole) {rest : List Char}
    (hr : EndsNumber rest) (negative : Bool) :
    readNumber? (minus negative ++ (row whole ++ rest)) =
      some (.integer (if negative then -(ofDigits whole : Int) else ofDigits whole), rest) := by
  have hfraction := takeFraction_eq_none fun c hc => (hr c hc).2.1
  have hexponent := takeExponent_eq_none fun c hc => (hr c hc).2.2
  rw [readNumber?_minus negative (hw.head rest), hw.take fun c hc => (hr c hc).1]
  simp only [hfraction, Option.elim_none, hexponent]

/-- Digits with a point between them are a double, with or without an exponent. -/
theorem readNumber?_point {whole fraction : List Nat} (hw : Leading whole) (hf : Decimal fraction)
    (hne : fraction ≠ []) {tail : List Char} (ht : ∀ c, tail.head? = some c → asciiDigit? c = none)
    (negative : Bool) :
    readNumber? (minus negative ++ (row whole ++ '.' :: (row fraction ++ tail))) =
      some (.real (.ofDecimal negative (ofDigits (whole ++ fraction))
        ((takeExponent tail).elim 0 (·.1) - fraction.length)),
        ((takeExponent tail).map (·.2)).getD tail) := by
  rw [readNumber?_minus negative (hw.head _), hw.take (by rintro c ⟨⟩; decide)]
  simp only [takeFraction_row hf hne ht, Option.elim_some]

/-- Digits with an exponent are a double. -/
theorem readNumber?_exponent {whole : List Nat} (hw : Leading whole) {tail rest : List Char}
    (ht : ∀ c, tail.head? = some c → asciiDigit? c = none ∧ c ≠ '.') {exponent : Int}
    (he : takeExponent tail = some (exponent, rest)) (negative : Bool) :
    readNumber? (minus negative ++ (row whole ++ tail)) =
      some (.real (.ofDecimal negative (ofDigits whole) exponent), rest) := by
  have hfraction := takeFraction_eq_none fun c hc => (ht c hc).2
  rw [readNumber?_minus negative (hw.head tail), hw.take fun c hc => (ht c hc).1]
  simp only [hfraction, Option.elim_none, he, Option.elim_some, List.append_nil, Option.map_some,
    Option.getD_some, List.length_nil]
  rw [show exponent - ((0 : Nat) : Int) = exponent by omega]

/-! ## The layouts of a double -/

theorem ofDecimal_mul_pow (negative : Bool) (digits k : Nat) (exponent : Int) :
    Binary64.ofDecimal negative (digits * 10 ^ k) exponent =
      Binary64.ofDecimal negative digits (exponent + k) := by
  rw [Binary64.ofDecimal, Magnitude.ofDecimal?_mul_pow, Binary64.ofDecimal]

/-- The digits of a double before the point is set: none is missing in front. -/
structure Significant (shown : List Nat) : Prop where
  decimal : Decimal shown
  ne_nil : shown ≠ []
  head : shown.head? ≠ some 0

/-- What the parts of a number with a point make up. -/
theorem readNumber?_pointed {whole fraction : List Nat} (hw : Leading whole) (hf : Decimal fraction)
    (hne : fraction ≠ []) {rest : List Char} (hr : EndsNumber rest) (negative : Bool) :
    readNumber? (minus negative ++ (row whole ++ '.' :: (row fraction ++ rest))) =
      some (.real (.ofDecimal negative (ofDigits (whole ++ fraction)) (-(fraction.length : Int))), rest) := by
  rw [readNumber?_point hw hf hne (fun c hc => (hr c hc).1), takeExponent_eq_none fun c hc => (hr c hc).2.2]
  simp only [Option.elim_none, Option.map_none, Option.getD_none, Int.zero_sub]

theorem leading_zero : Leading [0] :=
  ⟨decimal_replicate_zero 1, List.cons_ne_nil _ _, .inl rfl⟩

/-- A text shows digits with a point among them, after zeros have been put to either end of them. -/
structure Pointed (shown : List Nat) (point : Int) (text : List Char) (whole fraction : List Nat) (zeros : Nat) :
    Prop where
  text_eq : text = row whole ++ '.' :: row fraction
  leading : Leading whole
  decimal : Decimal fraction
  ne_nil : fraction ≠ []
  digits : ofDigits (whole ++ fraction) = ofDigits shown * 10 ^ zeros
  place : (zeros : Int) - fraction.length = point - shown.length

/-- Digits with zeros behind them, of which at least one is behind the point. -/
theorem pointed_padded {shown : List Nat} (hs : Significant shown) (zeros : Nat) :
    Pointed shown (shown.length + zeros : Nat) (row shown ++ List.replicate zeros '0' ++ ['.', '0'])
      (shown ++ List.replicate zeros 0) [0] (zeros + 1) where
  text_eq := by
    rw [row_append, row_replicate_zero]
    rfl
  leading := by
    refine ⟨decimal_append.mpr ⟨hs.decimal, decimal_replicate_zero _⟩, by simp [hs.ne_nil], .inr ?_⟩
    obtain ⟨first, others, rfl⟩ := List.exists_cons_of_ne_nil hs.ne_nil
    exact hs.head
  decimal := leading_zero.decimal
  ne_nil := leading_zero.ne_nil
  digits := by
    -- the zero behind the point is one more power of ten
    rw [List.append_assoc, ← List.replicate_succ', ofDigits_append, ofDigits_replicate_zero,
      List.length_replicate, Nat.add_zero]
  place := by
    rw [List.length_singleton]
    omega

/-- Digits with the point between them. -/
theorem pointed_split {shown : List Nat} (hs : Significant shown) {n : Nat} (hn : 0 < n) (hlt : n < shown.length) :
    Pointed shown n ((row shown).take n ++ '.' :: (row shown).drop n) (shown.take n) (shown.drop n) 0 where
  text_eq := by rw [row, row, row, List.map_take, List.map_drop]
  leading := by
    refine ⟨fun d hd => hs.decimal d (List.mem_of_mem_take hd), ?_, .inr ?_⟩
    · rw [ne_eq, List.take_eq_nil_iff]
      exact fun h => h.elim (Nat.ne_of_gt hn) hs.ne_nil
    · rw [List.head?_take, if_neg (Nat.ne_of_gt hn)]
      exact hs.head
  decimal := fun d hd => hs.decimal d (List.mem_of_mem_drop hd)
  ne_nil := by
    rw [ne_eq, List.drop_eq_nil_iff]
    omega
  digits := by rw [List.take_append_drop, Nat.pow_zero, Nat.mul_one]
  place := by
    rw [List.length_drop]
    omega

/-- Digits behind the point, with zeros in front of them. -/
theorem pointed_behind {shown : List Nat} (hs : Significant shown) (zeros : Nat) :
    Pointed shown (-(zeros : Int)) ('0' :: '.' :: List.replicate zeros '0' ++ row shown) [0]
      (List.replicate zeros 0 ++ shown) 0 where
  text_eq := by
    rw [row_append, row_replicate_zero]
    rfl
  leading := leading_zero
  decimal := decimal_append.mpr ⟨decimal_replicate_zero _, hs.decimal⟩
  ne_nil := by simp [hs.ne_nil]
  digits := by
    rw [Nat.pow_zero, Nat.mul_one, ← ofDigits_zeros_append (zeros + 1) shown]
    rfl
  place := by
    rw [List.length_append, List.length_replicate]
    omega

/-- Positional notation shows the digits with the point at its place. -/
theorem exists_pointed {shown : List Nat} (hs : Significant shown) (point : Int) :
    ∃ whole fraction zeros, Pointed shown point (positional (row shown) point) whole fraction zeros := by
  unfold positional
  split
  · -- the point is behind the first digit: past the last one, or between two of them
    rename_i p
    rw [length_row]
    split
    · have hpadded := pointed_padded hs (p + 1 - shown.length)
      rw [Nat.add_sub_cancel' ‹_›] at hpadded
      exact ⟨_, _, _, hpadded⟩
    · exact ⟨_, _, _, pointed_split hs (Nat.succ_pos p) (by omega)⟩
  · -- the point is in front of the digits
    rename_i hpoint
    have hle : point ≤ 0 := by
      cases point with
      | ofNat n =>
        cases n with
        | zero => exact Int.le_refl 0
        | succ p => exact absurd rfl (hpoint p)
      | negSucc n => exact Int.le_of_lt (Int.negSucc_lt_zero n)
    have hbehind := pointed_behind hs point.natAbs
    rw [show -(point.natAbs : Int) = point by omega] at hbehind
    exact ⟨_, _, _, hbehind⟩

/-- Positional notation is read as the digits with the point at its place. -/
theorem readNumber?_positional {shown : List Nat} (hs : Significant shown) (point : Int)
    {rest : List Char} (hr : EndsNumber rest) (negative : Bool) :
    readNumber? (minus negative ++ (positional (row shown) point ++ rest)) =
      some (.real (.ofDecimal negative (ofDigits shown) (point - shown.length)), rest) := by
  obtain ⟨whole, fraction, zeros, h⟩ := exists_pointed hs point
  rw [h.text_eq, List.append_assoc, List.cons_append, readNumber?_pointed h.leading h.decimal h.ne_nil hr, h.digits,
    ofDecimal_mul_pow, ← h.place, Int.add_comm, Int.sub_eq_add_neg]

/-- Exponent notation is read as the digits with the exponent behind the first of them. -/
theorem readNumber?_scientific {shown : List Nat} (hs : Significant shown) (point : Int)
    {rest : List Char} (hr : EndsNumber rest) (negative : Bool) :
    readNumber? (minus negative ++ (scientific (row shown) point ++ rest)) =
      some (.real (.ofDecimal negative (ofDigits shown) (point - shown.length)), rest) := by
  obtain ⟨digits, hrow, hdec, hval, hne⟩ := exists_row_padded 2 (point - 1).natAbs
  obtain ⟨first, others, rfl⟩ := List.exists_cons_of_ne_nil hs.ne_nil
  have hfirst : Leading [first] :=
    ⟨fun d hd => hs.decimal d (List.mem_singleton.mp hd ▸ List.mem_cons_self), List.cons_ne_nil _ _,
      .inr hs.head⟩
  have hothers : Decimal others := fun d hd => hs.decimal d (List.mem_cons_of_mem first hd)
  -- the exponent behind the digits, with its sign
  have htail : takeExponent ('e' :: (if point - 1 < 0 then '-' else '+') :: (row digits ++ rest)) =
      some (point - 1, rest) := by
    have htake := takeExponent_row hdec hne (fun c hc => (hr c hc).1) (decide (point - 1 < 0))
    simp only [decide_eq_true_eq] at htake
    rw [htake, hval]
    congr 2
    split <;> omega
  cases others with
  | nil =>
    have htext : scientific (row [first]) point ++ rest =
        row [first] ++ 'e' :: (if point - 1 < 0 then '-' else '+') :: (row digits ++ rest) := by
      unfold scientific
      dsimp only
      rw [hrow]
      rfl
    rw [htext, readNumber?_exponent hfirst (by rintro c ⟨⟩; decide) htail]
    rfl
  | cons second others =>
    have htext : scientific (row (first :: second :: others)) point ++ rest =
        row [first] ++ '.' :: (row (second :: others) ++
          'e' :: (if point - 1 < 0 then '-' else '+') :: (row digits ++ rest)) := by
      unfold scientific
      dsimp only
      rw [hrow]
      simp [row]
    have hplace : point - 1 - ((second :: others).length : Int) =
        point - (first :: second :: others).length := by
      rw [List.length_cons (a := first)]
      omega
    rw [htext, readNumber?_point hfirst hothers (List.cons_ne_nil _ _) (by rintro c ⟨⟩; decide), htail]
    simp only [Option.elim_some, Option.map_some, Option.getD_some, hplace]
    rfl

/-! ## Numbers of a document -/

/-- The text is read as the number, whatever stands behind it that does not belong to a number. -/
def Numeral (text : List Char) (n : Number) : Prop :=
  ∀ rest, EndsNumber rest → readNumber? (text ++ rest) = some (n, rest)

theorem exists_leading (n : Nat) :
    ∃ digits, decimal n = row digits ∧ Leading digits ∧ ofDigits digits = n := by
  obtain ⟨digits, hrow, hdec, hval, hne, hhead⟩ := exists_row_decimal n
  rcases Nat.eq_zero_or_pos n with rfl | hpos
  · exact ⟨[0], rfl, leading_zero, rfl⟩
  · exact ⟨digits, hrow, ⟨hdec, hne, .inr (hhead hpos)⟩, hval⟩

theorem numeral_decimal (negative : Bool) (n : Nat) :
    Numeral (minus negative ++ decimal n) (.integer (if negative then -(n : Int) else n)) := by
  intro rest hr
  obtain ⟨digits, hrow, hw, hval⟩ := exists_leading n
  rw [hrow, List.append_assoc, readNumber?_whole hw hr, hval]

/-- **An integer is read back.** -/
theorem numeral_integer (n : Int) : Numeral (integer n) (.integer n) := by
  cases n with
  | ofNat n => exact numeral_decimal false n
  | negSucc n => exact numeral_decimal true (n + 1)

/-- The digits of a double that is not zero, without the zeros at their end. -/
theorem exists_significant {x : Magnitude} (h : x.significand ≠ 0) :
    ∃ shown, Significant shown ∧
      (significantDigits x.shortest.1 x.shortest.2).1 = row shown ∧
      ∀ negative, Binary64.ofDecimal negative (ofDigits shown)
        ((significantDigits x.shortest.1 x.shortest.2).2 - shown.length) = .finite negative x := by
  have hreads := x.ofDecimal?_shortest
  generalize x.shortest.1 = digits at hreads ⊢
  generalize x.shortest.2 = exponent at hreads ⊢
  -- the decimal zero reads as zero, which `x` is not
  have hpos : 0 < digits := by
    apply Nat.pos_of_ne_zero
    intro hzero
    apply h
    rw [hzero] at hreads
    cases hreads
    rfl
  obtain ⟨written, hrow, hdec, hval, hne, hhead⟩ := exists_row_decimal digits
  obtain ⟨shown, zeros, rfl, hshown⟩ := exists_row_dropEnd hdec
  have hshown_ne : shown ≠ [] := by
    rintro rfl
    rw [List.nil_append, ofDigits_replicate_zero] at hval
    omega
  have hvalue : ofDigits shown * 10 ^ zeros = digits := by
    rw [← hval, ofDigits_append, ofDigits_replicate_zero, List.length_replicate, Nat.add_zero]
  have hfirst : shown.head? ≠ some 0 := by
    obtain ⟨first, others, rfl⟩ := List.exists_cons_of_ne_nil hshown_ne
    exact hhead hpos
  refine ⟨shown, ⟨(decimal_append.mp hdec).1, hshown_ne, hfirst⟩, ?_, ?_⟩
  · rw [significantDigits, hrow, hshown]
  · intro negative
    have hplace : (significantDigits digits exponent).2 - (shown.length : Int) = exponent + zeros := by
      rw [significantDigits, hrow, length_row, List.length_append, List.length_replicate]
      omega
    rw [hplace, ← ofDecimal_mul_pow, hvalue, Binary64.ofDecimal, hreads]

/-- **A finite double is read back.** -/
theorem numeral_finite (negative : Bool) (x : Magnitude) :
    Numeral ((Binary64.finite negative x).text .document) (.real (.finite negative x)) := by
  intro rest hr
  show readNumber? (minus negative ++ x.text ++ rest) = _
  rw [List.append_assoc]
  unfold Magnitude.text
  split
  · rename_i h
    rw [Magnitude.eq_zero_of_significand h]
    exact readNumber?_pointed leading_zero leading_zero.decimal leading_zero.ne_nil hr negative
  · rename_i h
    obtain ⟨shown, hs, hdigits, hvalue⟩ := exists_significant h
    dsimp only
    rw [hdigits]
    split
    · rw [readNumber?_positional hs _ hr, hvalue]
    · rw [readNumber?_scientific hs _ hr, hvalue]

/-- Nothing that is read as a number is a word. -/
theorem readWord?_of_readNumber? {text : List Char} {found : Number × List Char}
    (h : readNumber? text = some found) : readWord? text = none := by
  unfold readWord?
  split
  · exact nomatch (h : none = some found)
  · exact nomatch (h : none = some found)
  · exact nomatch (h : none = some found)
  · exact nomatch (h : none = some found)
  · exact nomatch (h : none = some found)
  · exact nomatch (h : none = some found)
  · rfl

theorem readValue_of_readNumber? {text rest : List Char} {n : Number} (fuel : Nat)
    (h : readNumber? text = some (n, rest)) : readValue (fuel + 1) text = .ok (.number n, rest) := by
  unfold readValue
  split
  · exact nomatch (h : none = some (n, rest))
  · exact nomatch (h : none = some (n, rest))
  · exact nomatch (h : none = some (n, rest))
  · rw [readWord?_of_readNumber? h]
    dsimp only
    rw [h]

/-- **Every number of a document is read back**, finite or not. -/
theorem readValue_number (n : Number) {rest : List Char} (hr : EndsNumber rest) (fuel : Nat) :
    readValue (fuel + 1) (n.documentText ++ rest) = .ok (.number n, rest) := by
  cases n with
  | integer n => exact readValue_of_readNumber? fuel (numeral_integer n rest hr)
  | real x =>
    cases x with
    | nan => rfl
    | infinite negative => cases negative <;> rfl
    | finite negative x => exact readValue_of_readNumber? fuel (numeral_finite negative x rest hr)

end Template.Json
