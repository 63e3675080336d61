import Template.Number.Notation

/-!
# `Template.Number.Basic` — the numbers of templates and documents

A number is an integer of any size or a double. The two are kept apart: `1` and `1.0` are different numbers
of equal value, and each is written back as what it was. In running text, though, a double that is a whole
number below 10 ^ 21 is written as that whole number.

* `Number` — an integer or a double;
* `Number.plain` — its text inside a string;
* `Number.documentText` — its text as a value of a document;
* `Number.isZero`, `Number.narrow` — comparison with zero; a whole double as the integer that it equals.
-/

namespace Template

/-- An integer of any size, or a double. -/
inductive Number where
  /-- An integer. -/
  | integer (value : Int)
  /-- A double. -/
  | real (value : Number.Binary64)
deriving DecidableEq, Inhabited

namespace Number

/-- The whole number below 10 ^ 21 that a double equals, if there is one. -/
def smallWhole? (x : Binary64) : Option Int :=
  match x with
  | .finite _ m => if m.isBelow (Nat.pow 10 21) then x.toInt? else none
  | _ => none

/-- The text of a number in running text. -/
def plain : Number → List Char
  | .integer n => Text.integer n
  | .real x =>
    match smallWhole? x with
    | some n => Text.integer n
    | none => x.text .plain

/-- The text of a number as a value of a document: a double never looks like an integer. -/
def documentText : Number → List Char
  | .integer n => Text.integer n
  | .real x => x.text .document

/-- Whether a number equals zero. -/
def isZero : Number → Bool
  | .integer n => n == 0
  | .real x => x.isZero

/-- A double as the integer that it equals, if it is whole. -/
def narrow (x : Binary64) : Number :=
  match x.toInt? with
  | some n => .integer n
  | none => .real x

end Number

end Template
