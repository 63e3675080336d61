import Template.Lenient

/-!
# `Template.Settings` — how the engine is set up

Settings hold for all runs of an engine, unlike options, which hold for one run. They come from the
environment: the setting `name` from the variable `PHE_name`, in any case.

* `Settings`;
* `Settings.ofEnvironment` — settings from the environment, or the names of those that are not acceptable.
-/

namespace Template

/-- How the engine is set up. -/
structure Settings where
  /-- Whether nothing is logged. -/
  quiet : Bool := false
  /-- The most passes of substitution over one text. -/
  maxPasses : Int := 10
  /-- Whether it is a failure that substitution has not settled after that many passes. -/
  strict : Bool := false
  /-- By how many spaces the parts of a document are indented. -/
  indent : Int := 2
  /-- Whether the parts of a document are processed at the same time, where nothing else is said. -/
  concurrent : Bool := false
deriving DecidableEq

namespace Settings

/-- What the names of variables begin with. -/
def variableMark : String := "PHE_"

/-- The variables that hold settings, without what their names begin with and in lower case. When two names
differ in case alone, the later one counts. -/
def assigned (environment : List (String × String)) : List (String × Json) :=
  let lower := fun (s : String) => String.ofList (Text.fold s.toList)
  let mark := lower variableMark
  environment.foldl (fun found (name, value) =>
    let name := lower name
    if name.startsWith mark then
      Json.put (String.ofList (name.toList.drop mark.length)) (.string value) found
    else found) []

/-- A field of the settings. -/
def field {α : Type} (found : List (String × Json)) (name : String) (read? : Json → Option α)
    (default : α) : Checked α :=
  match Json.member? (String.ofList (Text.fold name.toList)) found with
  | some value => Checked.field name read? value
  | none => .ok default

/-- The settings that the variables of an environment give. -/
def ofEnvironment (environment : List (String × String)) : Except Invalid Settings :=
  let found := assigned environment
  let fields :=
    (field found "beQuiet" Lenient.switch? false).both
    ((field found "maxIterations" Lenient.integer? 10).both
    ((field found "strictIterations" Lenient.switch? false).both
    ((field found "jsonIndent" Lenient.integer? 2).both
      (field found "concurrentLeaves" Lenient.switch? false))))
  Checked.finish (fields.map fun (quiet, maxPasses, strict, indent, concurrent) =>
    ({ quiet, maxPasses, strict, indent, concurrent } : Settings))

end Settings

end Template
