import Template.CommandLine.Help
import Template.Number.Reader
import Template.Options

/-!
# `Template.CommandLine.Arguments` — what a command line asks for

Options begin with two hyphens. The value of an option follows as the next argument, whatever that looks like,
or behind an equals sign; `--` ends the options. A command takes options and other arguments in any order, a
group takes options up to the name of a command. Of options that are given several times the last one counts,
unless they are meant to be repeated.

Whether a value is acceptable matters only for the option that counts, and not at all if a help page or the
version is asked for.

* `Switches`, `scan` — arguments sorted into options and others;
* `Request` — what filling in a template needs;
* `Invocation`, `invocation` — what a command line asks for.
-/

namespace Template.CommandLine

/-! ## Options and other arguments -/

/-- The options of a command or a group. -/
structure Switches where
  /-- The options that have a value. -/
  valued : List String := []
  /-- The options that have none. -/
  bare : List String
  /-- Whether options may follow other arguments. -/
  anywhere : Bool := true

/-- Arguments sorted into the options, with their values, and the others, both in order. -/
structure Scanned where
  /-- The options. -/
  options : List (String × String) := []
  /-- The others. -/
  others : List String := []

/-- Adds an option in front. -/
def Scanned.withOption (name value : String) (scanned : Scanned) : Scanned :=
  { scanned with options := (name, value) :: scanned.options }

/-- An argument cut at the first equals sign. -/
def cutValue (argument : String) : String × Option String :=
  match Text.cut? '=' argument.toList with
  | none => (argument, none)
  | some (name, value) => (String.ofList name, some (String.ofList value))

/-- Sorts arguments; there is no result if an option is unknown, lacks its value, or has one that it does not
take. -/
def scan (switches : Switches) : List String → Option Scanned
  | [] => some {}
  | argument :: rest =>
    if argument = "--" then some { others := rest }
    else if argument.startsWith "-" ∧ argument ≠ "-" then
      match cutValue argument with
      | (name, some value) =>
        if switches.valued.contains name then (scan switches rest).map (·.withOption name value)
        else none
      | (name, none) =>
        if switches.bare.contains name then (scan switches rest).map (·.withOption name "")
        else if switches.valued.contains name then
          match rest with
          | value :: rest => (scan switches rest).map (·.withOption name value)
          | [] => none
        else none
    else if switches.anywhere then
      (scan switches rest).map fun scanned =>
        { scanned with others := argument :: scanned.others }
    else
      some { others := argument :: rest }

namespace Scanned

/-- The values of an option, in order. -/
def values (scanned : Scanned) (name : String) : List String :=
  (scanned.options.filter (·.1 == name)).map (·.2)

/-- The value of an option that counts. -/
def last? (scanned : Scanned) (name : String) : Option String :=
  (scanned.values name).getLast?

/-- Whether an option is given. -/
def has (scanned : Scanned) (name : String) : Bool :=
  !(scanned.values name).isEmpty

/-- Which of some options is given first. -/
def first? (scanned : Scanned) (names : List String) : Option String :=
  (scanned.options.map (·.1)).find? names.contains

end Scanned

/-! ## Filling in a template -/

/-- What filling in a template needs. Files are given by their names. -/
structure Request where
  /-- Where the template is read from; `-` is the standard input. -/
  source : String := "-"
  /-- The format. -/
  format : Format := .json
  /-- If there are any, the only modules to ask. -/
  included : List String := []
  /-- Modules that are not asked. -/
  excluded : List String := []
  /-- Entries of the context. -/
  entries : List String := []
  /-- A file with the context. -/
  contextFile : Option String := none
  /-- Where the result is written, if not to the standard output. -/
  output : Option String := none
  /-- How many tokens may be nested in one another. -/
  maxDepth : Option Nat := none
  /-- Whether the parts of a document are processed at the same time, if that is said. -/
  concurrent : Option Bool := none

/-- A depth: digits of any script, with an optional plus sign and between blanks, that stand for one or
more. -/
def depth? (text : String) : Option Nat := do
  let unsigned := match Text.stripBy Text.isSpace text.toList with
    | '+' :: rest => rest
    | rest => rest
  let digits ← Text.groupedDigits? Text.digitValue? unsigned
  let n := Text.ofDigits digits
  if digits.length ≤ Number.exactDigits ∧ 1 ≤ n then some n else none

/-- An option that may be missing but has to be acceptable. -/
def optional? {α : Type} (read? : String → Option α) : Option String → Option (Option α)
  | none => some none
  | some text => (read? text).map some

/-- The option for processing at the same time, and its opposite. -/
def concurrentNames : List String := ["--concurrent", "--sequential"]

/-- The options of the command that fills in a template. -/
def generateSwitches : Switches where
  valued := ["--format", "--include", "--exclude", "--context", "--context-file", "--output",
    "--max-depth"]
  bare := "--help" :: concurrentNames

/-- The request that the arguments make, if they are acceptable. -/
def Scanned.request? (scanned : Scanned) : Option Request := do
  let format ← optional? Format.ofName? (scanned.last? "--format")
  let maxDepth ← optional? depth? (scanned.last? "--max-depth")
  let source ← match scanned.others with
    | [] => some "-"
    | [source] => some source
    | _ => none
  return {
    source
    format := format.getD .json
    included := scanned.values "--include"
    excluded := scanned.values "--exclude"
    entries := scanned.values "--context"
    contextFile := scanned.last? "--context-file"
    output := scanned.last? "--output"
    maxDepth
    concurrent := (scanned.options.map (·.1)).reverse.find? concurrentNames.contains |>.map
      (· == "--concurrent") }

/-! ## All commands -/

/-- What a command line asks for. -/
inductive Invocation where
  /-- A help page. -/
  | help (page : Page)
  /-- Nothing: there is no command where one has to be. -/
  | nothing (page : Page)
  /-- The version. -/
  | version
  /-- A template to be filled in. -/
  | generate (request : Request)
  /-- The list of the plugins. -/
  | plugins
  /-- The list of the transforms. -/
  | transforms
  /-- Something that is not understood. -/
  | misuse

/-- What the command that fills in a template is asked for. -/
def generateInvocation (arguments : List String) : Invocation :=
  match scan generateSwitches arguments with
  | none => .misuse
  | some scanned =>
    if scanned.has "--help" then .help generatePage
    else match scanned.request? with
      | some request => .generate request
      | none => .misuse

/-- What a command without arguments is asked for. -/
def bareInvocation (page : Page) (asked : Invocation) (arguments : List String) : Invocation :=
  match scan { bare := ["--help"] } arguments with
  | none => .misuse
  | some scanned =>
    if scanned.has "--help" then .help page
    else if scanned.others.isEmpty then asked
    else .misuse

/-- What a group is asked for: one of its own options, or one of its commands. Behind `--` an option of the
group may also stand in place of a command. -/
def groupInvocation (page : Page) (options : List String) (ofOption : String → Invocation)
    (command? : String → Option (List String → Invocation)) (arguments : List String) :
    Invocation :=
  let switches : Switches := { bare := options, anywhere := false }
  let own? := fun scanned : Scanned => (scanned.first? options).map ofOption
  if arguments.isEmpty then .nothing page
  else match scan switches arguments with
    | none => .misuse
    | some scanned =>
      match own? scanned, scanned.others with
      | some asked, _ => asked
      | none, [] => .misuse
      | none, name :: rest =>
        match command? name with
        | some command => command rest
        | none => ((scan switches (name :: rest)).bind own?).getD .misuse

/-- What the group that shows the registry is asked for. -/
def registryInvocation : List String → Invocation :=
  groupInvocation registryPage ["--help"] (fun _ => .help registryPage) fun
    | "plugins" => some (bareInvocation pluginsPage .plugins)
    | "transforms" => some (bareInvocation transformsPage .transforms)
    | _ => none

/-- What a command line asks for. -/
def invocation : List String → Invocation :=
  groupInvocation rootPage ["--version", "--help"]
    (fun option => if option = "--version" then .version else .help rootPage) fun
    | "generate" => some generateInvocation
    | "registry" => some registryInvocation
    | _ => none

end Template.CommandLine
