import Template.Number.Shortest
import Template.Text.Blank

/-!
# `Template.Number.Notation` — how doubles are written

A double is written with its shortest digits. Positional notation is used while the first digit stands at
one of the places 10 ^ (-4) to 10 ^ 15; outside of them the exponent is written, with a sign and at least
two digits. A whole number in positional notation keeps the ending `.0`, so that a double never looks like
an integer. The words for the values that are not finite depend on where the number is written.
-/

namespace Template.Number

/-- The spellings of the doubles that are not finite. -/
structure Words where
  /-- The undefined value. -/
  nan : String
  /-- The positive infinity; the negative one has a minus sign in front. -/
  infinity : String

/-- The words used inside documents. -/
def Words.document : Words := ⟨"NaN", "Infinity"⟩

/-- The words used in running text. -/
def Words.plain : Words := ⟨"nan", "inf"⟩

/-- The significant digits of a decimal, and the place of the point behind the first of them. -/
def significantDigits (digits : Nat) (exponent : Int) : List Char × Int :=
  let written := Text.decimal digits
  (Text.dropEnd (· == '0') written, exponent + written.length)

/-- Positional notation: `point` digits stand before the point. -/
def positional (digits : List Char) (point : Int) : List Char :=
  match point with
  | .ofNat (p + 1) =>
    if digits.length ≤ p + 1 then
      digits ++ List.replicate (p + 1 - digits.length) '0' ++ ['.', '0']
    else
      digits.take (p + 1) ++ '.' :: digits.drop (p + 1)
  | _ => '0' :: '.' :: List.replicate point.natAbs '0' ++ digits

/-- Exponent notation: one digit before the point. -/
def scientific (digits : List Char) (point : Int) : List Char :=
  let exponent := point - 1
  let mantissa := match digits with
    | first :: second :: rest => first :: '.' :: second :: rest
    | short => short
  let sign := if exponent < 0 then '-' else '+'
  mantissa ++ 'e' :: sign :: Text.padded 2 exponent.natAbs

/-- A finite absolute value. -/
def Magnitude.text (x : Magnitude) : List Char :=
  if x.significand = 0 then ['0', '.', '0']
  else
    let (digits, exponent) := x.shortest
    let (shown, point) := significantDigits digits exponent
    if -4 < point ∧ point ≤ 16 then positional shown point else scientific shown point

/-- A double, with the given words for what is not finite. -/
def Binary64.text (words : Words) : Binary64 → List Char
  | .nan => words.nan.toList
  | .infinite negative => (if negative then ['-'] else []) ++ words.infinity.toList
  | .finite negative x => (if negative then ['-'] else []) ++ x.text

end Template.Number
