import Template.Json.Basic

/-!
# `Template.Json.Printer` — documents as text

One printer serves two layouts. The compact one has no space at all; the indented one puts every item and
member on a line of its own, `width` further to the right than what it belongs to, and has a space behind
the colon. Empty arrays and objects stay on one line in both.

Inside strings only the quote, the backslash and the control characters below U+0020 are escaped.

* `Layout` — compact, or indented by a width;
* `Json.print` — the text of a value in a layout;
* `Json.asText` — the text of a value inside running text, where strings stand without quotes.
-/

namespace Template

/-- How a document is laid out on lines. -/
inductive Layout where
  /-- No space at all. -/
  | compact
  /-- Every item on a line of its own. -/
  | indented (width : Nat)

namespace Layout

/-- What separates two items at a depth, and the brackets from the first and the last of them. -/
def lineBreak (layout : Layout) (depth : Nat) : List Char :=
  match layout with
  | .compact => []
  | .indented width => '\n' :: List.replicate (width * depth) ' '

/-- What stands between a name and its value. -/
def colon : Layout → List Char
  | .compact => [':']
  | .indented _ => [':', ' ']

end Layout

namespace Json

/-- A character inside a string. -/
def escape (c : Char) : List Char :=
  if c = '"' then ['\\', '"']
  else if c = '\\' then ['\\', '\\']
  else if c = '\n' then ['\\', 'n']
  else if c = '\r' then ['\\', 'r']
  else if c = '\t' then ['\\', 't']
  else if c = '\x08' then ['\\', 'b']
  else if c = '\x0c' then ['\\', 'f']
  else if c.toNat < 0x20 then '\\' :: 'u' :: Text.paddedHex 4 c.toNat
  else [c]

/-- A string between quotes. -/
def printString (s : String) : List Char :=
  '"' :: (s.toList.flatMap escape ++ ['"'])

mutual

/-- The text of a value that stands at a depth. -/
def printAt (layout : Layout) (depth : Nat) : Json → List Char
  | .null => ['n', 'u', 'l', 'l']
  | .bool true => ['t', 'r', 'u', 'e']
  | .bool false => ['f', 'a', 'l', 's', 'e']
  | .number n => n.documentText
  | .string s => printString s
  | .array [] => ['[', ']']
  | .array (first :: rest) =>
    '[' :: layout.lineBreak (depth + 1) ++ printAt layout (depth + 1) first ++
      printItems layout (depth + 1) rest ++ layout.lineBreak depth ++ [']']
  | .object [] => ['{', '}']
  | .object ((name, first) :: rest) =>
    '{' :: layout.lineBreak (depth + 1) ++ printString name ++ layout.colon ++
      printAt layout (depth + 1) first ++ printMembers layout (depth + 1) rest ++
      layout.lineBreak depth ++ ['}']

/-- The text of further items of an array. -/
def printItems (layout : Layout) (depth : Nat) : List Json → List Char
  | [] => []
  | item :: rest =>
    ',' :: layout.lineBreak depth ++ printAt layout depth item ++ printItems layout depth rest

/-- The text of further members of an object. -/
def printMembers (layout : Layout) (depth : Nat) : List (String × Json) → List Char
  | [] => []
  | (name, value) :: rest =>
    ',' :: layout.lineBreak depth ++ printString name ++ layout.colon ++
      printAt layout depth value ++ printMembers layout depth rest

end

/-- The text of a document. -/
def print (layout : Layout) (value : Json) : List Char :=
  printAt layout 0 value

/-- The text of a value inside running text: a string is itself, arrays and objects are compact
documents. -/
def asText : Json → List Char
  | .null => ['n', 'u', 'l', 'l']
  | .bool true => ['t', 'r', 'u', 'e']
  | .bool false => ['f', 'a', 'l', 's', 'e']
  | .number n => n.plain
  | .string s => s.toList
  | value => value.print .compact

end Json

end Template
