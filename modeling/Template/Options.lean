import Template.Context

/-!
# `Template.Options` — how one run goes

The options of a run name its format, the modules that it may ask, the context for these, how deeply a token
may be nested, and whether the parts of a document are processed at the same time.

* `Format`, `Options`;
* `Options.allows` — whether a module may be asked;
* `Options.ofMembers` — options from the members of an object.
-/

namespace Template

/-- The format of a template. -/
inductive Format where
  | json
  | text
  | xml
deriving DecidableEq, Repr

/-- Every format. -/
def Format.all : List Format := [.json, .text, .xml]

/-- The word for a format. -/
def Format.name : Format → String
  | .json => "json"
  | .text => "text"
  | .xml => "xml"

/-- The format of a given word. -/
def Format.ofName? (name : String) : Option Format :=
  all.find? fun format => format.name == name

/-- How one run goes. -/
structure Options where
  /-- The format of the template. -/
  format : Format := .json
  /-- If given, the only modules that are asked. -/
  included : Option (List String) := none
  /-- If given, modules that are not asked. -/
  excluded : Option (List String) := none
  /-- What plugins may look at. -/
  context : Context := {}
  /-- If given, how many tokens may be nested in one another; at least one. -/
  maxDepth : Option Nat := none
  /-- Whether the parts of a document are processed at the same time. -/
  concurrent : Bool := false

namespace Options

/-- Whether a module may be asked: it has to be included, if there is a list for that, and it must not be
excluded. -/
def allows (options : Options) (module : String) : Bool :=
  options.included.all (·.contains module) && !options.excluded.any (·.contains module)

/-- A format from a document. -/
def readFormat? : Json → Option Format
  | .string s => Format.ofName? s
  | _ => none

/-- A name from a document. -/
def readName? : Json → Option String
  | .string s => some s
  | _ => none

/-- A set of names from a document: an array of strings. -/
def readNames? : Json → Option (List String)
  | .array items => (items.mapM readName?).map (·.eraseDups)
  | _ => none

/-- A depth from a document: a count that is at least one. -/
def readDepth? (value : Json) : Option Nat := do
  let n ← Lenient.integer? value
  if 1 ≤ n then some n.toNat else none

/-- The context of the options; a refused name is reported as a part of the context. -/
def checkContext (members : List (String × Json)) : Checked Context :=
  match Json.member? "context" members with
  | none => .ok {}
  | some (.object context) =>
    match Context.check context with
    | .ok context => .ok context
    | .error refused => .error (refused.map ("context." ++ ·))
  | some _ => .error ["context"]

/-- Options from the members of an object. Unknown members are ignored. -/
def ofMembers (members : List (String × Json)) : Except Invalid Options :=
  let fields :=
    (Checked.fieldD members "format" readFormat? .json).both
    ((Checked.optional members "include_plugins" readNames?).both
    ((Checked.optional members "exclude_plugins" readNames?).both
    ((checkContext members).both
    ((Checked.optional members "max_nesting_depth" readDepth?).both
      (Checked.fieldD members "concurrent" Lenient.switch? false)))))
  Checked.finish (fields.map fun (format, included, excluded, context, maxDepth, concurrent) =>
    ({ format, included, excluded, context, maxDepth, concurrent } : Options))

end Options

end Template
