/-!
# `Template.CommandLine.Markup` — styled text for a terminal

Console output carries its styles as tags in square brackets, such as `[bold red]Error:[/bold red]`. Text that
is not meant as a tag has to be escaped before it is printed: a backslash in front of a bracket makes it plain,
and backslashes in front of it are doubled.

A tag begins with a bracket and a small letter or one of `#`, `/` and `@`, and ends with the next closing
bracket, if there is no opening bracket before that.

* `styled` — a text in a style;
* `escape` — a text without any tag;
* `plain` — what is left of a text without its styles.
-/

namespace Template.CommandLine.Markup

/-- A text in a style. -/
def styled (style text : String) : String :=
  s!"[{style}]{text}[/{style}]"

/-- Whether a character may follow the opening bracket of a tag. -/
def opensTag (c : Char) : Bool :=
  ('a' ≤ c && c ≤ 'z') || c == '#' || c == '/' || c == '@'

/-- Whether a text, read from behind an opening bracket, is a tag and whatever follows it. -/
def isTag : List Char → Bool
  | [] => false
  | c :: rest => opensTag c && (rest.dropWhile fun c => c != '[' && c != ']').head? == some ']'

/-- A text in which nothing is a tag. `slashes` is the number of backslashes just in front of it, which are
not written yet. -/
def escapeFrom (slashes : Nat) : List Char → List Char
  | [] => List.replicate slashes '\\'
  | c :: rest =>
    if c = '\\' then escapeFrom (slashes + 1) rest
    else if c = '[' ∧ isTag rest then
      List.replicate (2 * slashes + 1) '\\' ++ c :: escapeFrom 0 rest
    else
      List.replicate slashes '\\' ++ c :: escapeFrom 0 rest

/-- A text in which nothing is a tag. A single backslash at the end is doubled, because a tag may follow. -/
def escape (text : String) : String :=
  let escaped := escapeFrom 0 text.toList
  let ending := escaped.reverse.takeWhile (· == '\\')
  String.ofList (if ending.length = 1 then escaped ++ ['\\'] else escaped)

/-- What is left of a text without its styles. -/
def plainFrom : (inTag : Bool) → List Char → List Char
  | _, [] => []
  | true, c :: rest => plainFrom (c != ']') rest
  | false, c :: rest =>
    match c, rest with
    | '\\', '[' :: rest => '[' :: plainFrom false rest
    | '[', rest => if isTag rest then plainFrom true rest else '[' :: plainFrom false rest
    | c, rest => c :: plainFrom false rest

/-- What is left of a text without its styles. -/
def plain (text : String) : String :=
  String.ofList (plainFrom false text.toList)

end Template.CommandLine.Markup
