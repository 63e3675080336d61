import Template.Number.Basic
import Template.Text.Blank
import Template.Text.Fold

/-!
# `Template.Number.Reader` — numbers written in text

The grammar, between blanks:

    number   ::= sign? digits | sign? decimal exponent?
    decimal  ::= digits ('.' digits?)? | '.' digits
    exponent ::= ('e' | 'E') sign? digits

A row of at most 4300 digits is the integer it shows, exactly. Everything else is the nearest double, and a
double that is whole becomes the integer of the same value. The words `inf`, `infinity` and `nan` are known,
but they and all that overflows a double are refused: a number is finite. Digits may belong to any script.

* `Literal` — what the grammar recognises;
* `Literal.read?` — the reader of the grammar, without the blanks;
* `Number.read` — the number of a text, or why there is none.
-/

namespace Template.Number

/-- Why a text is not a number. -/
inductive ReadFault where
  /-- The text does not follow the grammar. -/
  | notNumber (text : String)
  /-- The text names a number that is not finite. -/
  | notFinite (text : String)
deriving DecidableEq

/-- The wording of a fault. -/
def ReadFault.message : ReadFault → String
  | .notNumber text => s!"'{text}' is not a number"
  | .notFinite text => s!"'{text}' is not a finite number"

/-- The most digits that are read as an exact integer. -/
def exactDigits : Nat := 4300

/-- A number as it is written. -/
inductive Literal where
  /-- A row of digits. -/
  | whole (negative : Bool) (digits : List Nat)
  /-- `digits * 10 ^ exponent`, written with a point or an exponent. -/
  | scaled (negative : Bool) (digits : List Nat) (exponent : Int)
  /-- A word for a number that is not finite. -/
  | word
deriving DecidableEq

/-- A sign at the front of a text, and the rest; a missing sign is positive. -/
def takeSign : List Char → Bool × List Char
  | '-' :: rest => (true, rest)
  | '+' :: rest => (false, rest)
  | rest => (false, rest)

/-- An exponent at the front of a text, and the rest. -/
def takeExponent? : List Char → Option (Int × List Char)
  | c :: rest =>
    if c = 'e' ∨ c = 'E' then
      let (negative, rest) := takeSign rest
      let (digits, rest) := Text.takeDigits Text.digitValue? rest
      if digits.isEmpty then none
      else
        let size : Int := Text.ofDigits digits
        some (if negative then -size else size, rest)
    else none
  | [] => none

/-- What stands behind the sign of a number. -/
def Literal.readUnsigned? (negative : Bool) (text : List Char) : Option Literal :=
  let (leading, rest) := Text.takeDigits Text.digitValue? text
  let (point, fraction, rest) := match rest with
    | '.' :: rest =>
      let (fraction, rest) := Text.takeDigits Text.digitValue? rest
      (true, fraction, rest)
    | rest => (false, [], rest)
  if leading.isEmpty && fraction.isEmpty then
    if [['i', 'n', 'f'], ['i', 'n', 'f', 'i', 'n', 'i', 't', 'y'], ['n', 'a', 'n']].contains
        (Text.foldAscii text) then
      some .word
    else none
  else if rest.isEmpty then
    if point then some (.scaled negative (leading ++ fraction) (-(fraction.length : Int)))
    else some (.whole negative leading)
  else match takeExponent? rest with
    | some (exponent, []) =>
      some (.scaled negative (leading ++ fraction) (exponent - fraction.length))
    | _ => none

/-- The number literal that a text without surrounding blanks is, if it is one. -/
def Literal.read? (text : List Char) : Option Literal :=
  let (negative, rest) := takeSign text
  readUnsigned? negative rest

/-- The number that a literal stands for, if it is finite. -/
def Literal.value? : Literal → Option Number
  | .whole negative digits =>
    if digits.length ≤ exactDigits then
      let n : Int := Text.ofDigits digits
      some (.integer (if negative then -n else n))
    else finite? (Binary64.ofDecimal negative (Text.ofDigits digits) 0)
  | .scaled negative digits exponent =>
    finite? (Binary64.ofDecimal negative (Text.ofDigits digits) exponent)
  | .word => none
where
  /-- A finite double, as an integer when it is whole. -/
  finite? (x : Binary64) : Option Number :=
    if x.isFinite then some (narrow x) else none

/-- The number that a text writes. Text of blanks alone is zero if `blankIsZero`, and no number
otherwise. -/
def read (text : List Char) (blankIsZero : Bool) : Except ReadFault Number :=
  let trimmed := Text.trim text
  if trimmed.isEmpty && blankIsZero then .ok (.integer 0)
  else match Literal.read? trimmed with
    | none => .error (.notNumber (String.ofList text))
    | some literal =>
      match literal.value? with
      | none => .error (.notFinite (String.ofList text))
      | some number => .ok number

end Template.Number
