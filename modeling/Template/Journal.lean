import Template.Json.Literal
import Template.Text.Search

/-!
# `Template.Journal` — what is logged

A record of the log is a message together with named values. A message is made of parts, which are joined by
single spaces; braces and markup inside of it have no meaning. All records name the application, unless they
name another one themselves.

* `Journal.Record`, `Journal.record?`.
-/

namespace Template.Journal

/-- A record of the log. -/
structure Record where
  /-- The message. -/
  message : String
  /-- How important it is. -/
  level : String
  /-- The named values. -/
  extra : List (String × Json)

/-- The level of all records. -/
def debugLevel : String := "DEBUG"

/-- The values that every record names. -/
def standing : List (String × Json) := [("app", .string "PHENGINE")]

/-- A part of a message as text: strings stand as they are, everything else as a literal. -/
def partText : Json → List Char
  | .string s => s.toList
  | value => value.literal

/-- The record with a message of the given parts, or none if nothing is to be logged. -/
def record? (quiet : Bool) (parts : List Json) (extra : List (String × Json)) : Option Record :=
  if quiet then none
  else some {
    message := String.ofList (Text.joinWith [' '] (parts.map partText))
    level := debugLevel
    extra := Json.merge standing extra }

end Template.Journal
