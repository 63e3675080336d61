/-!
# `Template.Text.Line` — the lines of a text

Texts that come from outside may end their lines with a line feed, a carriage return, or both. Inside, lines
end with a line feed alone.

* `unifyBreaks` — a text with one kind of line end;
* `longest` — the length of the longest line.
-/

namespace Template.Text

/-- A text in which every line ends with a line feed. -/
def unifyBreaks : List Char → List Char
  | [] => []
  | '\r' :: '\n' :: rest => '\n' :: unifyBreaks rest
  | c :: rest => (if c = '\r' then '\n' else c) :: unifyBreaks rest

/-- The length of the longest line, when `current` characters of its first line are gone already. -/
def longestFrom (current : Nat) : List Char → Nat
  | [] => current
  | c :: rest =>
    if c = '\n' then max current (longestFrom 0 rest) else longestFrom (current + 1) rest

/-- The length of the longest line. -/
def longest (text : List Char) : Nat :=
  longestFrom 0 text

end Template.Text
