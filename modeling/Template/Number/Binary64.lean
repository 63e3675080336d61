import Template.Text.Digit

/-!
# `Template.Number.Binary64` — double-precision numbers by their exact values

A finite double is a sign and a magnitude, and a magnitude is a whole number of *units*: a unit is
2 ^ (-1074), the least positive double. Every operation goes through one function, `Magnitude.ofRatio?`,
which takes an exact quotient of natural numbers and rounds it once, to the nearest double with ties to the
even significand. Nothing here uses the machine's floating-point instructions, so every result can be
computed and reasoned about in the integers.

* `Magnitude` — a significand below 2 ^ 53 and a shift, in the one normal form of its value;
* `Magnitude.ofRatio?` — rounding, `none` when the quotient is too large for a double;
* `Magnitude.ofDecimal?` — the double nearest to `digits * 10 ^ exponent`;
* `Binary64` — doubles with their signs, infinities and the one undefined value.
-/

namespace Template.Number

/-- Rounds a quotient to the nearest natural number; a tie goes to the even neighbour. -/
def roundHalfEven (num den : Nat) : Nat :=
  let q := num / den
  let r := num % den
  if 2 * r < den then q else if den < 2 * r then q + 1 else q + q % 2

/-- How many units of the least positive double make one. -/
def unitsPerOne : Nat := Nat.pow 2 1074

/-- The absolute value of a finite double: `significand * 2 ^ shift` units. -/
structure Magnitude where
  /-- The significant bits. -/
  significand : Nat
  /-- The weight of the last significant bit, as a power of two of the unit. -/
  shift : Nat
  significand_lt : significand < Nat.pow 2 53
  shift_le : shift ≤ 2045
  normal : shift = 0 ∨ Nat.pow 2 52 ≤ significand
deriving DecidableEq

namespace Magnitude

/-- The magnitude of these parts, if they are in normal form and in range. -/
def make? (significand shift : Nat) : Option Magnitude :=
  if h : significand < Nat.pow 2 53 ∧ shift ≤ 2045 ∧ (shift = 0 ∨ Nat.pow 2 52 ≤ significand) then
    some ⟨significand, shift, h.1, h.2.1, h.2.2⟩
  else
    none

/-- Zero. -/
def zero : Magnitude := ⟨0, 0, by decide, by decide, .inl rfl⟩

instance : Inhabited Magnitude := ⟨zero⟩

/-- The value in units. -/
def units (x : Magnitude) : Nat := x.significand * Nat.pow 2 x.shift

/-- The double nearest to `num / den`, ties to the even significand. -/
def ofRatio? (num den : Nat) : Option Magnitude :=
  let scaled := num * unitsPerOne
  let shift := (scaled / den).log2 - 52
  let significand := roundHalfEven scaled (den * Nat.pow 2 shift)
  if significand = Nat.pow 2 53 then make? (Nat.pow 2 52) (shift + 1) else make? significand shift

/-- The double nearest to `digits * 10 ^ exponent`.

A number of more than 310 places before the point is above every double, and one whose first digit stands
more than 330 places behind the point is below half of the least one, so neither needs to be computed. -/
def ofDecimal? (digits : Nat) (exponent : Int) : Option Magnitude :=
  if digits = 0 then some zero
  else
    let places := exponent + Text.decimalLength digits
    if 310 < places then none
    else if places < -330 then some zero
    else match exponent with
      | .ofNat e => ofRatio? (digits * Nat.pow 10 e) 1
      | .negSucc e => ofRatio? digits (Nat.pow 10 (e + 1))

/-- Whether the value is a whole number. -/
def isIntegral (x : Magnitude) : Bool := x.units % unitsPerOne == 0

/-- The greatest whole number not above the value. -/
def floor (x : Magnitude) : Nat := x.units / unitsPerOne

/-- The units beyond the greatest whole number. -/
def fraction (x : Magnitude) : Nat := x.units % unitsPerOne

/-- Whether the value is below a whole number. -/
def isBelow (x : Magnitude) (n : Nat) : Bool := x.units < n * unitsPerOne

end Magnitude

/-- A double-precision number. -/
inductive Binary64 where
  /-- The undefined value. -/
  | nan
  /-- Beyond every finite double. -/
  | infinite (negative : Bool)
  /-- A sign and an absolute value; zero has both signs. -/
  | finite (negative : Bool) (magnitude : Magnitude)
deriving DecidableEq, Inhabited

namespace Binary64

/-- The double nearest to `num / den`, `none` if there is none in range. -/
def ofRatio? (num : Int) (den : Nat) : Option Binary64 :=
  (Magnitude.ofRatio? num.natAbs den).map (.finite (num < 0))

/-- The double nearest to a signed decimal number; infinite beyond the range of doubles. -/
def ofDecimal (negative : Bool) (digits : Nat) (exponent : Int) : Binary64 :=
  match Magnitude.ofDecimal? digits exponent with
  | some x => .finite negative x
  | none => .infinite negative

/-- Whether the number is finite. -/
def isFinite : Binary64 → Bool
  | .finite _ _ => true
  | _ => false

/-- Whether the number equals zero, of either sign. -/
def isZero : Binary64 → Bool
  | .finite _ x => x.significand == 0
  | _ => false

/-- The signed value in units, for a finite number. -/
def units? : Binary64 → Option Int
  | .finite true x => some (-x.units)
  | .finite false x => some x.units
  | _ => none

/-- The whole number of this value, if it is one. -/
def toInt? : Binary64 → Option Int
  | .finite negative x =>
    if x.isIntegral then some (if negative then -(x.floor : Int) else x.floor) else none
  | _ => none

/-- The greatest whole number not above a finite value. -/
def floor? (x : Binary64) : Option Int :=
  x.units?.map fun u => u.fdiv unitsPerOne

/-- A finite number times a natural number, rounded. -/
def scale? (x : Binary64) (factor : Nat) : Option Binary64 :=
  x.units?.bind fun u => ofRatio? (u * factor) unitsPerOne

/-- A finite number over a positive natural number, rounded. -/
def divide? (x : Binary64) (divisor : Nat) : Option Binary64 :=
  x.units?.bind fun u => ofRatio? u (divisor * unitsPerOne)

end Binary64

/-! ## Rounding a whole quotient -/

/-- A quotient that is a whole number rounds to itself. -/
theorem roundHalfEven_mul (n : Nat) {den : Nat} (h : 0 < den) : roundHalfEven (n * den) den = n := by
  unfold roundHalfEven
  simp [Nat.mul_div_cancel n h, h]

end Template.Number
