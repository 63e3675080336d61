import Template.Number.Binary64

/-!
# `Template.Number.Shortest` — the fewest decimal digits that read back

A double is written with the fewest significant digits from which it can be read again; of the decimals of
that length that read back, the nearest is taken, and of two equally near ones the even one.

For each length the candidates are the two neighbours of the value on the decimal grid of that length, and
*reading back* is tested by `Magnitude.ofDecimal?` itself. Seventeen digits always suffice for a double, and
behind them stands the whole binary expansion, which is exact; so whatever is written reads back.

* `Magnitude.reads` — whether a decimal reads back as the given double;
* `Magnitude.shortest` — digits and exponent of ten.
-/

namespace Template.Number.Magnitude

/-- Whether `digits * 10 ^ exponent` is read as `x`. -/
def reads (x : Magnitude) (digits : Nat) (exponent : Int) : Bool :=
  ofDecimal? digits exponent == some x

/-- The exponent of ten of the first significant digit of `num / den`, both positive. -/
def leadingPlace (num den : Nat) : Int :=
  if den ≤ num then Text.decimalLength (num / den) - 1
  else -(Text.decimalLength ((den + num - 1) / num - 1) : Int)

/-- `num / den` in steps of `10 ^ place`: the steps below it, and the remainder with the size of a step. -/
def onGrid (num den : Nat) (place : Int) : Nat × Nat × Nat :=
  match place with
  | .ofNat p =>
    let step := den * Nat.pow 10 p
    (num / step, num % step, step)
  | .negSucc p =>
    let scaled := num * Nat.pow 10 (p + 1)
    (scaled / den, scaled % den, den)

/-- The nearest decimal of a given grid that reads back as `x`, if one does. -/
def nearestOnGrid (x : Magnitude) (place : Int) : Option (Nat × Int) :=
  let (below, rest, step) := onGrid x.units unitsPerOne place
  let low := x.reads below place
  let high := x.reads (below + 1) place
  let lowNearer := 2 * rest < step || (2 * rest == step && below % 2 == 0)
  if low && (!high || lowNearer) then some (below, place)
  else if high then some (below + 1, place)
  else none

/-- The exact value: every double is a decimal of at most 1074 places. -/
def exact (x : Magnitude) : Nat × Int :=
  (x.units * Nat.pow 5 1074, -1074)

/-- The first of the given numbers of digits for which a decimal of that length reads back. -/
def shortestFrom (x : Magnitude) (leading : Int) : List Nat → Nat × Int
  | [] => x.exact
  | length :: lengths =>
    match x.nearestOnGrid (leading + 1 - length) with
    | some decimal => decimal
    | none => x.shortestFrom leading lengths

/-- The digits and the exponent of ten of the shortest decimal that reads back as `x`. -/
def shortest (x : Magnitude) : Nat × Int :=
  if x.significand = 0 then (0, 0)
  else x.shortestFrom (leadingPlace x.units unitsPerOne) ((List.range 17).map (· + 1))

end Template.Number.Magnitude
