import Template.Proofs.ShownTime

/-!
# `Template.Proofs.Offsets` — one offset in different units

A calculation shifts the base time by a number of units. All units but months and years are a fixed time, and a year is
twelve months, so that every unit is made of so many of the next smaller one. For a whole number of units it makes no
difference which of the two is used: the shifted moments are the same, and they are out of range at the same offsets. In a
pattern the offset counts seconds, and so a pattern is out of range where seconds are.

## Contents
- `TimeUnit.MadeOf` — units that are made of other units.
- `TimeUnit.Length.after?`, `shift_integer` — shifts by whole numbers of units.
- `answer_calc_unit`, `answer_calc_pattern` — calculations with whole offsets.
- `offsets_agree` — the same offset in different units, and in a pattern.
-/

namespace Template

open Calendar Number

namespace TimeUnit

/-! ## Units -/

/-- A word is the name of a unit if it is that name in lower case. -/
theorem ofWord?_eq_some_iff {word : String} {unit : TimeUnit} :
    ofWord? word = some unit ↔ Text.fold word.toList = unit.name.toList := by
  unfold ofWord?
  constructor
  · intro h
    have hname := List.find?_some h
    rw [beq_iff_eq] at hname
    rw [hname, String.toList_ofList]
  · intro h
    rw [h, String.ofList_toList]
    cases unit <;> decide

theorem ofWord?_eq_none_iff {word : String} :
    ofWord? word = none ↔ ∀ unit : TimeUnit, Text.fold word.toList ≠ unit.name.toList := by
  rw [Option.eq_none_iff_forall_ne_some]
  exact forall_congr' fun unit => not_congr ofWord?_eq_some_iff

/-- A unit is made of so many of another one. -/
inductive MadeOf : TimeUnit → ℕ → TimeUnit → Prop where
  | weeks : MadeOf .weeks 7 .days
  | days : MadeOf .days 24 .hours
  | hours : MadeOf .hours 60 .minutes
  | minutes : MadeOf .minutes 60 .seconds
  | seconds : MadeOf .seconds 1000 .milliseconds
  | years : MadeOf .years 12 .months

/-- So many times a length. -/
def Length.times (k : ℕ) : Length → Length
  | .micros count => .micros (k * count)
  | .months count => .months (k * count)

theorem MadeOf.length_eq {large small : TimeUnit} {k : ℕ} (h : MadeOf large k small) :
    large.length = small.length.times k := by
  cases h <;> rfl

theorem MadeOf.le {large small : TimeUnit} {k : ℕ} (h : MadeOf large k small) : k ≤ 1000 := by
  cases h <;> decide

/-- The moment `n` lengths after another one, if it lies in the years 1 to 9999. -/
def Length.after? (length : Length) (m : Moment) (n : ℤ) : Option Moment :=
  match length with
  | .micros count => m.add? (n * count)
  | .months count => m.addMonths? (n * count)

/-- It is the same whether the lengths are taken together or one by one. -/
theorem Length.after?_times (length : Length) (k : ℕ) (m : Moment) (n : ℤ) :
    (length.times k).after? m n = length.after? m (k * n) := by
  have hcount : ∀ count : ℕ, n * (k * count : ℕ) = k * n * count := by
    intro count
    push_cast
    ring
  cases length with
  | micros count =>
    show m.add? _ = m.add? _
    rw [hcount]
  | months count =>
    show m.addMonths? _ = m.addMonths? _
    rw [hcount]

end TimeUnit

namespace Clock

/-! ## Calculations with whole offsets -/

/-- A text that is read as an integer. -/
def Spells (text : String) (n : ℤ) : Prop :=
  Number.read text.toList false = .ok (.integer n)

/-- An integer in decimal digits, of which there are not too many. -/
theorem spells_integer {n : ℤ} {digits : ℕ} (h : n.natAbs < 10 ^ digits) (hdigits : digits ≤ exactDigits) :
    Spells (String.ofList (Text.integer n)) n := by
  unfold Spells
  rw [String.toList_ofList]
  exact Number.read_integer (Nat.lt_of_lt_of_le h (Nat.pow_le_pow_right (by decide) hdigits)) false

theorem shift_integer (unit : TimeUnit) (base : Moment) (n : ℤ) :
    shift unit base (.integer n) = inRange (unit.length.after? base n) := by
  unfold shift
  cases unit.length <;> rfl

/-- A calculation in a unit. -/
theorem answer_calc_unit {offset word : String} {n : ℤ} {unit : TimeUnit} (hoffset : Spells offset n)
    (hword : Text.fold word.toList = unit.name.toList) (now : Moment) (context : Context) (rest : List String) :
    answer now context "calc" (offset :: word :: rest) =
      (baseTime now context).bind fun base =>
        (inRange (unit.length.after? base n)).map fun later => .int later.unixSeconds := by
  show shifted now context offset word = _
  rw [shifted, hoffset]
  cases hbase : baseTime now context with
  | error cause => rfl
  | ok base =>
    dsimp only [Except.bind, bind]
    rw [TimeUnit.ofWord?_eq_some_iff.mpr hword]
    dsimp only
    rw [shift_integer]
    cases unit.length.after? base n <;> rfl

/-- A calculation in a pattern. -/
theorem answer_calc_pattern {offset form : String} {n : ℤ} (hoffset : Spells offset n)
    (hform : ∀ unit : TimeUnit, Text.fold form.toList ≠ unit.name.toList) (now : Moment) (context : Context)
    (rest : List String) :
    answer now context "calc" (offset :: form :: rest) =
      (baseTime now context).bind fun base =>
        (inRange (base.add? (n * 1000000))).map fun later => formatted later form := by
  show shifted now context offset form = _
  rw [shifted, hoffset]
  cases hbase : baseTime now context with
  | error cause => rfl
  | ok base =>
    dsimp only [Except.bind, bind]
    rw [TimeUnit.ofWord?_eq_none_iff.mpr hform]
    dsimp only
    rw [shift_integer]
    show _ = (inRange (TimeUnit.seconds.length.after? base n)).map _
    cases TimeUnit.seconds.length.after? base n <;> rfl

/-- What a calculation in a unit can come to: the failure of the base time, no moment within range, or a number. -/
theorem answer_calc_cases {offset word : String} {n : ℤ} {unit : TimeUnit} (hoffset : Spells offset n)
    (hword : Text.fold word.toList = unit.name.toList) (now : Moment) (context : Context) (rest : List String) :
    (∃ cause, baseTime now context = .error cause ∧
        answer now context "calc" (offset :: word :: rest) = .error cause) ∨
      answer now context "calc" (offset :: word :: rest) = .error .outOfRange ∨
      ∃ s, answer now context "calc" (offset :: word :: rest) = .ok (.int s) := by
  rw [answer_calc_unit hoffset hword]
  cases baseTime now context with
  | error cause => exact .inl ⟨cause, rfl, rfl⟩
  | ok base =>
    cases hlater : unit.length.after? base n with
    | none =>
      refine .inr (.inl ?_)
      dsimp only [Except.bind]
      rw [hlater]
      rfl
    | some later =>
      refine .inr (.inr ⟨later.unixSeconds, ?_⟩)
      dsimp only [Except.bind]
      rw [hlater]
      rfl

/-! ## Units agree -/

/-- Offsets in a unit and in the one that it is made of. -/
theorem answer_calc_madeOf {large small : TimeUnit} {k : ℕ} (h : TimeUnit.MadeOf large k small) {n : ℤ}
    {offset scaled word word' : String} (hoffset : Spells offset n) (hscaled : Spells scaled (k * n))
    (hword : Text.fold word.toList = large.name.toList) (hword' : Text.fold word'.toList = small.name.toList)
    (now : Moment) (context : Context) (rest rest' : List String) :
    answer now context "calc" (offset :: word :: rest) = answer now context "calc" (scaled :: word' :: rest') := by
  rw [answer_calc_unit hoffset hword, answer_calc_unit hscaled hword', h.length_eq]
  simp only [TimeUnit.Length.after?_times]

/-- A pattern is out of range where seconds are. -/
theorem answer_calc_pattern_iff {offset form word : String} {n : ℤ} (hoffset : Spells offset n)
    (hform : ∀ unit : TimeUnit, Text.fold form.toList ≠ unit.name.toList)
    (hword : Text.fold word.toList = TimeUnit.seconds.name.toList) (now : Moment) (context : Context)
    (rest rest' : List String) :
    (∃ value, answer now context "calc" (offset :: form :: rest) = .ok value) ↔
      ∃ value, answer now context "calc" (offset :: word :: rest') = .ok value := by
  rw [answer_calc_pattern hoffset hform, answer_calc_unit hoffset hword]
  cases baseTime now context with
  | error cause => exact Iff.rfl
  | ok base =>
    show (∃ value, (inRange (base.add? (n * 1000000))).map _ = .ok value) ↔
      ∃ value, (inRange (base.add? (n * 1000000))).map _ = .ok value
    cases base.add? (n * 1000000) with
    | none => exact Iff.rfl
    | some later => exact ⟨fun _ => ⟨_, rfl⟩, fun _ => ⟨_, rfl⟩⟩

/-- A result in a pattern is the moment so many seconds after the base time in that form. -/
theorem exists_of_answer_calc_pattern {offset form : String} {n : ℤ} {now : Moment} {context : Context}
    {rest : List String} {value : Json} (hoffset : Spells offset n)
    (hform : ∀ unit : TimeUnit, Text.fold form.toList ≠ unit.name.toList)
    (h : answer now context "calc" (offset :: form :: rest) = .ok value) :
    ∃ base later, baseTime now context = .ok base ∧ later.unixMicros = base.unixMicros + n * 1000000 ∧
      value = formatted later form := by
  rw [answer_calc_pattern hoffset hform] at h
  cases hbase : baseTime now context with
  | error cause =>
    rw [hbase] at h
    cases h
  | ok base =>
    rw [hbase] at h
    dsimp only [Except.bind] at h
    cases hlater : base.add? (n * 1000000) with
    | none =>
      rw [hlater] at h
      cases h
    | some later =>
      rw [hlater] at h
      cases h
      exact ⟨base, later, rfl, Moment.add?_eq_some_iff.mp hlater, rfl⟩

/-- **Offsets agree.** Whatever the context and the clock, a whole offset `n` in one unit and `k * n` in the unit of which
it is made of `k`, in any letter case, have the same outcome: the failure of the base time, out of range, or one number.
Offsets of up to 300 digits are read as they are written. With a pattern that is no name of a unit there is a result exactly
if there is one for `n` seconds, and it is the moment `n` seconds after the base time in the form of the pattern. -/
theorem offsets_agree (now : Moment) (context : Context) {n : ℤ} (hn : n.natAbs < 10 ^ 300) :
    Spells (String.ofList (Text.integer n)) n ∧
    (∀ large k small, TimeUnit.MadeOf large k small →
      Spells (String.ofList (Text.integer (k * n))) (k * n) ∧
      ∀ offset scaled word word' rest rest', Spells offset n → Spells scaled (k * n) →
        Text.fold word.toList = large.name.toList → Text.fold word'.toList = small.name.toList →
        answer now context "calc" (offset :: word :: rest) = answer now context "calc" (scaled :: word' :: rest') ∧
        ((∃ cause, baseTime now context = .error cause ∧
            answer now context "calc" (offset :: word :: rest) = .error cause) ∨
          answer now context "calc" (offset :: word :: rest) = .error .outOfRange ∨
          ∃ s, answer now context "calc" (offset :: word :: rest) = .ok (.int s))) ∧
    (∀ offset form word rest rest', Spells offset n →
      (∀ unit : TimeUnit, Text.fold form.toList ≠ unit.name.toList) → Text.fold word.toList = "seconds".toList →
      ((∃ value, answer now context "calc" (offset :: form :: rest) = .ok value) ↔
        ∃ value, answer now context "calc" (offset :: word :: rest') = .ok value) ∧
      ∀ value, answer now context "calc" (offset :: form :: rest) = .ok value →
        ∃ base later, baseTime now context = .ok base ∧ later.unixMicros = base.unixMicros + n * 1000000 ∧
          value = formatted later form) := by
  refine ⟨spells_integer hn (by decide), ?_, ?_⟩
  · intro large k small h
    refine ⟨spells_integer (?_ : _ < 10 ^ (3 + 300)) (by decide), ?_⟩
    · calc (k * n : ℤ).natAbs = k * n.natAbs := by rw [Int.natAbs_mul, Int.natAbs_natCast]
        _ ≤ 10 ^ 3 * n.natAbs := Nat.mul_le_mul_right _ h.le
        _ < 10 ^ 3 * 10 ^ 300 := Nat.mul_lt_mul_of_pos_left hn (by decide)
        _ = 10 ^ (3 + 300) := by rw [pow_add]
    · intro offset scaled word word' rest rest' hoffset hscaled hword hword'
      exact ⟨answer_calc_madeOf h hoffset hscaled hword hword' now context rest rest',
        answer_calc_cases hoffset hword now context rest⟩
  · intro offset form word rest rest' hoffset hform hword
    exact ⟨answer_calc_pattern_iff hoffset hform hword now context rest rest',
      fun value => exists_of_answer_calc_pattern hoffset hform⟩

/-- A year and a week after the 29th of February, and a year after the last one. -/
theorem offsets_agree_leap :
    answer default { startTimeTest := some (.text "2024-02-29T12:00:00Z") } "calc" ["1", "Years"] =
        answer default { startTimeTest := some (.text "2024-02-29T12:00:00Z") } "calc" ["12", "months"] ∧
      answer default { startTimeTest := some (.text "2024-02-29T12:00:00Z") } "calc" ["12", "months"] =
        .ok (.int (Moment.noon ⟨2025, 2, 28, by decide⟩).unixSeconds) ∧
      answer default { startTimeTest := some (.text "2024-02-29T12:00:00Z") } "calc" ["1", "WEEKS"] =
        answer default { startTimeTest := some (.text "2024-02-29T12:00:00Z") } "calc" ["7", "days"] ∧
      answer default { startTimeTest := some (.text "9999-12-31T12:00:00Z") } "calc" ["1", "years"] =
        answer default { startTimeTest := some (.text "9999-12-31T12:00:00Z") } "calc" ["12", "months"] ∧
      ∃ value, answer default { startTimeTest := some (.text "2024-02-29T12:00:00Z") } "calc" ["1", "ss"] = .ok value := by
  have hbase : baseTime default { startTimeTest := some (.text "2024-02-29T12:00:00Z") } =
      .ok (.noon ⟨2024, 2, 29, by decide⟩) := by decide +kernel
  have hone : Spells "1" 1 := rfl
  have hseven : Spells "7" 7 := rfl
  have htwelve : Spells "12" 12 := rfl
  have hsmall : (1 : ℤ).natAbs < 10 ^ 300 := one_lt_pow₀ (by decide) (by decide)
  obtain ⟨-, hunits, hpattern⟩ :=
    offsets_agree default { startTimeTest := some (.text "2024-02-29T12:00:00Z") } hsmall
  obtain ⟨-, hlast, -⟩ := offsets_agree default { startTimeTest := some (.text "9999-12-31T12:00:00Z") } hsmall
  refine ⟨?_, ?_, ?_, ?_, ?_⟩
  · exact ((hunits _ _ _ .years).2 "1" "12" "Years" "months" [] [] hone htwelve (by decide) (by decide)).1
  · have hlater : TimeUnit.months.length.after? (.noon ⟨2024, 2, 29, by decide⟩) 12 =
        some (.noon ⟨2025, 2, 28, by decide⟩) := by decide
    rw [answer_calc_unit htwelve (by decide : _ = TimeUnit.months.name.toList), hbase]
    dsimp only [Except.bind]
    rw [hlater]
    rfl
  · exact ((hunits _ _ _ .weeks).2 "1" "7" "WEEKS" "days" [] [] hone hseven (by decide) (by decide)).1
  · exact ((hlast _ _ _ .years).2 "1" "12" "years" "months" [] [] hone htwelve (by decide) (by decide)).1
  · let later : Moment := ⟨⟨2024, 2, 29, by decide⟩, 43201000000, by decide⟩
    have hlater : TimeUnit.seconds.length.after? (.noon ⟨2024, 2, 29, by decide⟩) 1 = some later :=
      Moment.add?_eq_some_iff.mpr (by decide)
    refine (hpattern "1" "ss" "seconds" [] [] hone (by rintro ⟨⟩ <;> decide) (by decide)).1.mpr ⟨.int later.unixSeconds, ?_⟩
    rw [answer_calc_unit hone (by decide : _ = TimeUnit.seconds.name.toList), hbase]
    dsimp only [Except.bind]
    rw [hlater]
    rfl

end Clock

end Template
