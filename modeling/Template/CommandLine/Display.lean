import Template.CommandLine.Markup
import Template.Text.Line

/-!
# `Template.CommandLine.Display` — what is shown on the console

The console shows lines of styled text, panels with a frame, and tables. It is apart from the output of a
command, which holds results only.

* `Display`, `Column` — what is shown;
* `panel` — a panel that is as wide as its text needs, up to a limit;
* `Display.lines` — what is shown, without styles and frames.
-/

namespace Template.CommandLine

/-- A column of a table. -/
structure Column where
  /-- What stands above it. -/
  header : String
  /-- What stands in it, from the top. -/
  cells : List String
deriving DecidableEq

/-- Something that is shown. -/
inductive Display where
  /-- Styled text. -/
  | text (markup : String)
  /-- Styled text in a frame of a width. -/
  | panel (markup : String) (width : Nat)
  /-- A table. -/
  | table (title : String) (columns : List Column)
deriving DecidableEq

namespace Display

/-- The width that the frame of a panel adds to its longest line. -/
def frameWidth : Nat := 10

/-- No panel is wider than this. -/
def widest : Nat := 80

/-- A panel that is as wide as its text needs. -/
def framed (markup : String) : Display :=
  .panel markup (min (Text.longest markup.toList + frameWidth) widest)

/-- The rows of a table, as far as every column has a cell. -/
def rows : List Column → List (List String)
  | [] => []
  | [column] => column.cells.map ([·])
  | column :: rest => List.zipWith (· :: ·) column.cells (rows rest)

/-- Lines that show the same without styles and frames. -/
def lines : Display → List String
  | .text markup => [Markup.plain markup]
  | .panel markup _ => [Markup.plain markup]
  | .table title columns =>
    title :: "  ".intercalate (columns.map (·.header)) :: (rows columns).map ("  ".intercalate ·)

end Display

end Template.CommandLine
