import Template.Text.Digit

/-!
# `Template.Path` — places in a document

A path leads from the root of a document to one of its values, by names of members and numbers of items. It
is written with a point in front of a name, unless nothing has been written yet, and brackets around a
number: `items[0].id`. The root is the empty text.
-/

namespace Template

/-- A step from a value to one of its parts. -/
inductive PathStep where
  /-- To a member of an object. -/
  | name (name : String)
  /-- To an item of an array. -/
  | index (index : Int)
deriving DecidableEq

/-- A place in a document, outermost step first. -/
abbrev Path := List PathStep

namespace Path

/-- Writes a step behind what is written already. -/
def extend (written : List Char) : PathStep → List Char
  | .index i => written ++ '[' :: Text.integer i ++ [']']
  | .name name => if written.isEmpty then name.toList else written ++ '.' :: name.toList

/-- The text of a path. -/
def format (path : Path) : List Char :=
  path.foldl extend []

end Path

end Template
