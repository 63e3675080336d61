import Template.Number.Reader
import Template.Plugin

/-!
# `Template.Transform` — the standard transforms

* `toNumber` — text is read as a number, where blank text is zero; truth values are one and zero; null,
  objects and arrays are no numbers;
* `toString` — the value as it stands inside text;
* `toBoolean` — the words for true and false, in any case and between blanks; other text is true unless it
  is empty; numbers are true unless zero; null is false, objects and arrays are true.

A value that already has the wanted shape stays as it is.
-/

namespace Template.Transform

/-- The name of the transform to numbers. -/
def toNumberName : String := "toNumber"

/-- A value as a number. -/
def asNumber : Json → Except Cause Json
  | .number n => .ok (.number n)
  | .bool b => .ok (.int (if b then 1 else 0))
  | .string s =>
    match Number.read s.toList true with
    | .ok n => .ok (.number n)
    | .error _ => .error (.inapplicable toNumberName s!"Cannot convert \"{s}\" to number")
  | value => .error (.inapplicable toNumberName s!"Cannot convert {value.kind.name} to number")

/-- The words for true. -/
def trueWords : List String := ["true", "yes", "1", "on", "y"]

/-- The words for false. -/
def falseWords : List String := ["false", "no", "0", "off", "n", ""]

/-- Text as a truth value. -/
def textTruth (s : String) : Bool :=
  let word := String.ofList (Text.fold (Text.trim s.toList))
  if trueWords.contains word then true
  else if falseWords.contains word then false
  else !s.isEmpty

/-- A value as a truth value. -/
def asBoolean : Json → Bool
  | .bool b => b
  | .string s => textTruth s
  | .number n => !n.isZero
  | .null => false
  | .array _ => true
  | .object _ => true

/-- The transform to numbers. -/
def toNumber : Transform where
  name := toNumberName
  apply value _ := (asNumber value).map .value

/-- The transform to text. -/
def toText : Transform where
  name := "toString"
  apply value _ := .ok (.value (.string (String.ofList value.asText)))

/-- The transform to truth values. -/
def toBoolean : Transform where
  name := "toBoolean"
  apply value _ := .ok (.value (.bool (asBoolean value)))

/-- The transforms that are always there, in order. -/
def standard : List Transform := [toNumber, toText, toBoolean]

end Template.Transform
