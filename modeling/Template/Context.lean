import Template.Calendar.IsoText
import Template.Json.Printer
import Template.Lenient

/-!
# `Template.Context` — what a caller tells about a run

A context is a set of named values that plugins may look at. Three names have a meaning: the identifier of
the test case, and two base times, of the test and of the script. A base time may be a number, a text or a
moment; whether it can be understood is found out only when it is needed. All other names are kept as they
are, in order.

* `Anchor`, `CaseId`, `Context` — the parts;
* `Context.ofMembers` — a context from the members of an object;
* `Context.anchor?` — the base time: that of the test, or else that of the script; empty text is none;
* `Context.get?` — a value by name.
-/

namespace Template

/-- A base time as it was given. -/
inductive Anchor where
  /-- A Unix time. -/
  | number (value : Number)
  /-- A Unix time or an ISO 8601 text, not looked at yet. -/
  | text (value : String)
  /-- A moment on a clock so many minutes east of UTC; in UTC, if nothing is known about the clock. -/
  | moment (shown : Moment) (offset : Option Int)

/-- The identifier of a test case. -/
inductive CaseId where
  | text (value : String)
  | number (value : Int)

/-- What a caller tells about a run. -/
structure Context where
  /-- The test case. -/
  testcaseId : Option CaseId := none
  /-- The base time of the test. -/
  startTimeTest : Option Anchor := none
  /-- The base time of the script. -/
  startTimeScript : Option Anchor := none
  /-- All other values, in order. -/
  extra : List (String × Json) := []

namespace Anchor

/-- A base time from a document. -/
def ofJson? : Json → Option Anchor
  | .number n => some (.number n)
  | .string s => some (.text s)
  | .bool b => some (.number (.integer (if b then 1 else 0)))
  | _ => none

/-- A base time as a value; a moment is given as its Unix time. -/
def toJson : Anchor → Json
  | .number n => .number n
  | .text s => .string s
  | .moment shown offset =>
    .number (.real ((Number.Binary64.ofRatio?
      (shown.unixMicros - offset.getD 0 * 60000000) 1000000).getD .nan))

/-- Whether a base time was left blank. -/
def isEmpty : Anchor → Bool
  | .text s => s.isEmpty
  | _ => false

end Anchor

/-- An identifier from a document. -/
def CaseId.ofJson? : Json → Option CaseId
  | .string s => some (.text s)
  | value => (Lenient.integer? value).map .number

/-- An identifier as a value. -/
def CaseId.toJson : CaseId → Json
  | .text s => .string s
  | .number n => .int n

namespace Context

/-- The name of the test case's identifier. -/
def caseName : String := "testcaseId"

/-- The name of the test's base time. -/
def testName : String := "startTimeTest"

/-- The name of the script's base time. -/
def scriptName : String := "startTimeScript"

/-- The names with a meaning. -/
def declared : List String := [caseName, testName, scriptName]

/-- A context from the members of an object, or the names that have invalid values. -/
def check (members : List (String × Json)) : Checked Context :=
  let fields := (Checked.optional members caseName CaseId.ofJson?).both
    ((Checked.optional members testName Anchor.ofJson?).both
      (Checked.optional members scriptName Anchor.ofJson?))
  fields.map fun (testcaseId, startTimeTest, startTimeScript) => {
    testcaseId, startTimeTest, startTimeScript
    extra := members.filter fun member => !declared.contains member.1 }

/-- A context from the members of an object, unless some have invalid values. -/
def ofMembers (members : List (String × Json)) : Except Invalid Context :=
  (check members).finish

/-- The base time: that of the test, or else that of the script. Empty text counts as absent. -/
def anchor? (context : Context) : Option Anchor :=
  (context.startTimeTest.filter (!·.isEmpty)).or (context.startTimeScript.filter (!·.isEmpty))

/-- The value of a name, if there is one. -/
def get? (context : Context) (name : String) : Option Json :=
  if name = caseName then context.testcaseId.map CaseId.toJson
  else if name = testName then context.startTimeTest.map Anchor.toJson
  else if name = scriptName then context.startTimeScript.map Anchor.toJson
  else Json.member? name context.extra

end Context

end Template
