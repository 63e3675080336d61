import Template.Json.Basic
import Template.Number.Reader
import Template.Text.Blank
import Template.Text.Fold
import Template.Text.Search

/-!
# `Template.Lenient` — switches and counts given in other shapes

Options and settings come from documents, from the environment and from a command line, so a count may be
given as `3`, `3.0` or `"3"`, and a switch as `true`, `1` or `"yes"`. These readers say which spellings are
accepted; everything else is an invalid value.

* `integerText?`, `integer?` — a count;
* `switchText?`, `switch?` — a switch;
* `Invalid` — the fields of a record that have invalid values;
* `Checked` — a record being put together from fields that may be invalid, all of which are reported.
-/

namespace Template

/-- A record that was refused. -/
structure Invalid where
  /-- The names of the fields with invalid values. -/
  fields : List String
  /-- What is wrong with the record as a whole, if that is the reason. -/
  message : String := ""
deriving DecidableEq

/-- Something put together from named fields, or the names of all fields that were refused. -/
abbrev Checked (α : Type) := Except (List String) α

namespace Checked

/-- Two parts together; refusals of both are kept. -/
def both {α β : Type} : Checked α → Checked β → Checked (α × β)
  | .ok a, .ok b => .ok (a, b)
  | .error refused, .ok _ => .error refused
  | .ok _, .error refused => .error refused
  | .error refused, .error others => .error (refused ++ others)

/-- A field that `read?` has to accept. -/
def field {α : Type} (name : String) (read? : Json → Option α) (value : Json) : Checked α :=
  match read? value with
  | some a => .ok a
  | none => .error [name]

/-- A field of an object: `default` when it is absent. -/
def fieldD {α : Type} (members : List (String × Json)) (name : String) (read? : Json → Option α)
    (default : α) : Checked α :=
  match Json.member? name members with
  | some value => field name read? value
  | none => .ok default

/-- A field of an object that may be absent or null. -/
def optional {α : Type} (members : List (String × Json)) (name : String) (read? : Json → Option α) :
    Checked (Option α) :=
  match Json.member? name members with
  | none | some .null => .ok none
  | some value => (field name read? value).map some

/-- The finished record; refused names are listed in alphabetical order. -/
def finish {α : Type} : Checked α → Except Invalid α
  | .ok a => .ok a
  | .error refused => .error { fields := refused.mergeSort (fun a b => decide (a ≤ b)) }

end Checked

namespace Lenient

/-! ## Counts -/

/-- The text of a count behind zeros, of which `last` is the last. Underscores among the zeros go with them,
and one character is kept in front of a point or the end. -/
def afterZeros? (last : Char) : List Char → Option (List Char)
  | [] => some [last]
  | c :: rest =>
    if c = '0' ∨ c = '_' then afterZeros? c rest
    else if c = '.' then some (last :: c :: rest)
    else if c = '-' ∨ (Text.asciiDigit? c).isSome then some (c :: rest)
    else none

/-- The text of a count without leading zeros; it has to begin with a digit or a minus sign. -/
def dropZeros? : List Char → Option (List Char)
  | [] => none
  | c :: rest =>
    if c = '0' then afterZeros? c rest
    else if c = '-' ∨ (Text.asciiDigit? c).isSome then some (c :: rest)
    else none

/-- Whether a count begins with a minus sign, and its text behind the sign. No minus sign may follow a plus
sign. -/
def sign? : List Char → Option (Bool × List Char)
  | '+' :: '-' :: _ => none
  | '+' :: rest => some (false, rest)
  | '-' :: rest => some (true, rest)
  | text => some (false, text)

/-- The text of a count without a point and the zeros behind it; there has to be at least one. -/
def dropFraction (text : List Char) : List Char :=
  match Text.cut? '.' text with
  | some (whole, zeros) => if !zeros.isEmpty && zeros.all (· == '0') then whole else text
  | none => text

/-- The text of a count without the single underscores between its characters. -/
def ungroup? (text : List Char) : Option (List Char) :=
  let groups := Text.splitOn '_' text
  if groups.any List.isEmpty then none else some groups.flatten

/-- A natural number in digits without leading zeros, of which there are not too many. -/
def plainNat? (text : List Char) : Option Nat := do
  if text.length > Number.exactDigits then none
  else
    match ← text.mapM Text.asciiDigit? with
    | [] | 0 :: _ :: _ => none
    | digits => return Text.ofDigits digits

/-- An integer: a minus sign if it is negative, and digits without leading zeros. -/
def plainInteger? : List Char → Option Int
  | '-' :: digits => (plainNat? digits).map fun n => -n
  | digits => (plainNat? digits).map fun n => n

/-- A count in text. There may be blanks around it, a sign, zeros in front of it, a point with zeros behind it,
and single underscores between its characters; what is left is a plain integer. A minus sign may also stand
behind the zeros. -/
def integerText? (text : List Char) : Option Int := do
  let (negative, unsigned) ← sign? (Text.stripBy Text.isSpace text)
  let digits ← ungroup? (dropFraction (← dropZeros? unsigned))
  plainInteger? (if negative then '-' :: digits else digits)

/-- A count: an integer, a whole double that fits into 64 bits, a truth value, or text. -/
def integer? : Json → Option Int
  | .number (.integer n) => some n
  | .number (.real x) => do
    let n ← x.toInt?
    if -(Nat.pow 2 63 : Int) < n ∧ n < Nat.pow 2 63 then some n else none
  | .bool b => some (if b then 1 else 0)
  | .string s => integerText? s.toList
  | _ => none

/-! ## Switches -/

/-- A switch in text. -/
def switchText? (text : List Char) : Option Bool :=
  let word := String.ofList (Text.foldAscii text)
  if ["1", "on", "t", "true", "y", "yes"].contains word then some true
  else if ["0", "off", "f", "false", "n", "no"].contains word then some false
  else none

/-- A switch: a truth value, zero or one, or text. -/
def switch? : Json → Option Bool
  | .bool b => some b
  | .string s => switchText? s.toList
  | .number n =>
    match integer? (.number n) with
    | some 0 => some false
    | some 1 => some true
    | _ => none
  | _ => none

end Lenient

end Template
