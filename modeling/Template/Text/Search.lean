/-!
# `Template.Text.Search` — occurrence, replacement and splitting

Texts are lists of characters here, so that each function is a recursion on its text.

* `occursIn needle text` — whether a stretch of `text` equals `needle`;
* `replaceAll needle new text` — every occurrence replaced, from the left and without overlap;
* `splitOn sep text`, `joinWith sep parts` — a text cut at every `sep`, and back;
* `cut?` — a text in two at the first separator.
-/

namespace Template.Text

/-- Whether `needle` stands somewhere in the text. -/
def occursIn (needle : List Char) : List Char → Bool
  | [] => needle.isEmpty
  | c :: rest => needle.isPrefixOf (c :: rest) || occursIn needle rest

/-- Replaces occurrences from the left; `skip` characters still belong to the one last replaced. -/
def replaceFrom (needle new : List Char) : (skip : Nat) → List Char → List Char
  | _, [] => []
  | skip + 1, _ :: rest => replaceFrom needle new skip rest
  | 0, c :: rest =>
    if needle.isPrefixOf (c :: rest) then
      new ++ replaceFrom needle new (needle.length - 1) rest
    else
      c :: replaceFrom needle new 0 rest

/-- Every occurrence of a non-empty `needle` replaced, from the left and without overlap. -/
def replaceAll (needle new text : List Char) : List Char :=
  replaceFrom needle new 0 text

/-- The part before the first `sep` and the part after it, when there is one. -/
def cut? (sep : Char) : List Char → Option (List Char × List Char)
  | [] => none
  | c :: rest =>
    if c = sep then some ([], rest)
    else (cut? sep rest).map fun (before, after) => (c :: before, after)

/-- A text cut at every `sep`; the parts may be empty, and there is always at least one. -/
def splitOn (sep : Char) : List Char → List (List Char)
  | [] => [[]]
  | c :: rest =>
    if c = sep then [] :: splitOn sep rest
    else match splitOn sep rest with
      | [] => [[c]]
      | part :: parts => (c :: part) :: parts

/-- Parts written one after another with `sep` between them. -/
def joinWith (sep : List Char) : List (List Char) → List Char
  | [] => []
  | [part] => part
  | part :: parts => part ++ sep ++ joinWith sep parts

theorem splitOn_ne_nil (sep : Char) (text : List Char) : splitOn sep text ≠ [] := by
  cases text with
  | nil => simp [splitOn]
  | cons c rest =>
    unfold splitOn
    split
    · simp
    · split <;> simp

end Template.Text
