import Template.Json.Basic
import Template.Text.Quoted

/-!
# `Template.Json.Literal` — values shown in a message

A message that complains about a value shows it on one line: texts are quoted, the three constants are
capitalised, a space follows every comma and colon, and numbers are spelled as in running text except that a
double never looks like an integer.
-/

namespace Template.Json

mutual

/-- A value as a message shows it. -/
def literal : Json → List Char
  | .null => ['N', 'o', 'n', 'e']
  | .bool true => ['T', 'r', 'u', 'e']
  | .bool false => ['F', 'a', 'l', 's', 'e']
  | .number (.integer n) => Text.integer n
  | .number (.real x) => x.text .plain
  | .string s => Text.quoted s.toList
  | .array [] => ['[', ']']
  | .array (first :: rest) => '[' :: literal first ++ literalItems rest ++ [']']
  | .object [] => ['{', '}']
  | .object ((name, first) :: rest) =>
    '{' :: Text.quoted name.toList ++ ':' :: ' ' :: literal first ++ literalMembers rest ++ ['}']

/-- Further items of an array. -/
def literalItems : List Json → List Char
  | [] => []
  | item :: rest => ',' :: ' ' :: literal item ++ literalItems rest

/-- Further members of an object. -/
def literalMembers : List (String × Json) → List Char
  | [] => []
  | (name, value) :: rest =>
    ',' :: ' ' :: Text.quoted name.toList ++ ':' :: ' ' :: literal value ++ literalMembers rest

end

/-- Why a value cannot carry the tag of a shape. -/
structure TagFault where
  /-- The value. -/
  value : Json
  /-- The shape that it was said to have. -/
  claimed : Kind

/-- The wording of a fault. -/
def TagFault.message (fault : TagFault) : String :=
  s!"Value {String.ofList fault.value.literal} is tagged '{fault.claimed.name}' " ++
    s!"but has shape '{fault.value.kind.name}'"

/-- A value that is said to have a shape, which must be the one it has. -/
def tagged (value : Json) (claimed : Kind) : Except TagFault Json :=
  if value.kind = claimed then .ok value else .error { value, claimed }

end Template.Json
