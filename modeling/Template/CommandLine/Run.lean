import Template.CommandLine.Arguments
import Template.ContextSource
import Template.Engine

/-!
# `Template.CommandLine.Run` — what the program does

The program is a function from what it finds (`Surroundings`) to what it leaves behind (`Effects`). Results go
to the standard output or into a file; everything that is meant for a reader goes to the console. The exit code
is 0 after success, 1 when a template cannot be filled in, 2 when the command line is not understood, and 130
after an interruption.

A result that is there has still to be put out, and what takes it may refuse: the standard output may be closed, a
file may not be writable, its name may not be fit to be shown, or the template may have brought half of a character,
which has no encoding. The program does not deal with that. It ends with the exit code 1, and what it had put out
until then stays.

* `Surroundings`, `Effects`;
* `Outlets`, `Outlets.deliver` — what takes results, and a result that is put out;
* `generate` — a template filled in;
* `run` — a whole command line;
* `interrupted` — the end after an interruption.
-/

namespace Template.CommandLine

open Markup

/-- How a file takes a text. -/
inductive Saving where
  /-- It holds the text. -/
  | done
  /-- It is as it was before. -/
  | refused
  /-- The text broke off, and this is what the file holds. -/
  | broken (left : String)
deriving DecidableEq

/-- What takes results, and lines for a reader. Unless something else is said, everything is taken. -/
structure Outlets where
  /-- How the file with the given name takes a text. -/
  save : String → String → Saving := fun _ _ => .done
  /-- What the standard output has taken of a text when it broke off, if it does. -/
  breaksOff : String → Option String := fun _ => none
  /-- Whether the console shows something. -/
  shows : Display → Bool := fun _ => true

/-- What the program finds. -/
structure Surroundings where
  /-- The settings. -/
  settings : Settings := {}
  /-- The current time. -/
  now : Moment
  /-- The standard input. -/
  input : String := ""
  /-- The files by their names. -/
  file? : String → Option String
  /-- The name of the configuration file. -/
  configPath : String := "config.json"
  /-- What the configuration file holds, if it exists. -/
  config : Option String := none
  /-- What takes the result of filling in a template. -/
  outlets : Outlets := {}

/-- What the program leaves behind. -/
structure Effects where
  /-- The exit code. -/
  exitCode : Nat := 0
  /-- The standard output. -/
  output : String := ""
  /-- What is shown on the console. -/
  console : List Display := []
  /-- The files that are written, with what they hold. -/
  files : List (String × String) := []

/-- The version of the program. -/
def version : String := "0.1.0"

/-- The end when the command line is not understood. -/
def misused : Effects := { exitCode := 2 }

/-- The end after an interruption. -/
def interrupted : Effects where
  exitCode := 130
  console := [.text ("\n" ++ styled "bold cyan" "Interrupted by user. Exiting.")]

/-! ## Files -/

/-- The name of a file without empty steps and steps to the same place. -/
def tidyName (name : String) : String :=
  let steps := (Text.splitOn '/' name.toList).filter fun step => !step.isEmpty && step != ['.']
  let tidied := String.ofList (Text.joinWith ['/'] steps)
  if name.startsWith "/" then "/" ++ tidied else tidied

/-- What a file holds. -/
def Surroundings.read? (surroundings : Surroundings) (name : String) : Option (List Char) :=
  (surroundings.file? (tidyName name)).map (·.toList)

/-- The template that a request names. -/
def Surroundings.source? (surroundings : Surroundings) (name : String) : Option (List Char) :=
  (if name = "-" then some surroundings.input.toList else surroundings.read? name).map
    Text.unifyBreaks

/-! ## Filling in a template -/

/-- The context of a request, and what there is to note; no context if a source is refused. -/
def context? (surroundings : Surroundings) (request : Request) :
    Option Context × List String :=
  let (standing, notes) :=
    ContextSource.defaultContext surroundings.configPath (surroundings.config.map (·.toList))
  let context := do
    let file ← match request.contextFile with
      | none => some none
      | some name => (surroundings.read? name).map some
    let given ← (ContextSource.ofFile file).toOption
    let entries ← (ContextSource.ofPairs request.entries).toOption
    (Context.ofMembers (Json.merge (Json.merge standing given) entries)).toOption
  (context, notes)

/-- A list of modules, of which none means that there is no list. -/
def listed? (modules : List String) : Option (List String) :=
  if modules.isEmpty then none else some modules

/-- The options of a request. -/
def Request.options (request : Request) (settings : Settings) (context : Context) : Options where
  format := request.format
  included := listed? request.included
  excluded := listed? request.excluded
  context
  maxDepth := request.maxDepth
  concurrent := request.concurrent.getD settings.concurrent

/-- The end after an error that nothing deals with. -/
def aborted : Effects := { exitCode := 1 }

/-- The line that says that a file is written. -/
def wroteLine (name : String) : Display := .text (styled "bold green" s!"Wrote {name}")

/-- Puts out a text: into a file, which is then said on the console, or to the standard output. -/
def Outlets.deliver (outlets : Outlets) (output : Option String) (text : String) : Effects :=
  match output with
  | some name =>
    let name := tidyName name
    match outlets.save name text with
    | .refused => aborted
    | .broken left => { aborted with files := [(name, left)] }
    | .done =>
      if outlets.shows (wroteLine name) then { console := [wroteLine name], files := [(name, text)] }
      else { aborted with files := [(name, text)] }
  | none =>
    match outlets.breaksOff text with
    | some part => { aborted with output := part }
    | none => { output := text }

/-- What is left behind after a report. -/
def Request.effects (request : Request) (outlets : Outlets) (report : Engine.Report) : Effects :=
  match report.error with
  | some error =>
    let line := Display.text (styled "bold red" "Error:" ++ " " ++ escape error)
    { exitCode := report.exitCode
      console := [line].filter outlets.shows }
  | none => outlets.deliver request.output (String.ofList report.text ++ "\n")

section

variable [Wording]

/-- What becomes of the template that a request names; nothing if it is not there, or its context is refused. -/
def reported? (surroundings : Surroundings) (request : Request) (world : World Draws) :
    Option (Except String Engine.Report) × World Draws :=
  let (context, notes) := context? surroundings request
  let world := notes.foldl World.note world
  match context, surroundings.source? request.source with
  | some context, some template =>
    let (engine, world) := Engine.standard surroundings.settings surroundings.now world
    let options := request.options surroundings.settings context
    let (report, world) := engine.tryReport options template world
    (some report, world)
  | _, _ => (none, world)

/-- Fills in a template. -/
def generate (surroundings : Surroundings) (request : Request) (world : World Draws) :
    Effects × World Draws :=
  match reported? surroundings request world with
  | (none, world) => (misused, world)
  | (some (.error _), world) => (aborted, world)
  | (some (.ok report), world) => (request.effects surroundings.outlets report, world)

end

/-! ## The registry -/

/-- What the plugins and transforms are made of. -/
def makers : List (String × String) :=
  [("gen", "GeneratorPlugin"), ("time", "TimePlugin"), ("toNumber", "ToNumberTransform"),
    ("toString", "ToStringTransform"), ("toBoolean", "ToBooleanTransform")]

/-- A table of names and what is behind them. -/
def namesTable (title : String) (names : List String) : Display :=
  .table title
    [⟨"Name", names⟩, ⟨"Class", names.map fun name => (makers.lookup name).getD ""⟩]

/-- Shows a part of the registry of the standard engine. -/
def inspect (surroundings : Surroundings) (title : String)
    (names : Registry Draws → List String) (world : World Draws) : Effects × World Draws :=
  let (engine, world) := Engine.standard surroundings.settings surroundings.now world
  ({ console := [namesTable title (names engine.registry)] }, world)

/-! ## All commands -/

/-- Does what a command line asks for. -/
def perform [Wording] (surroundings : Surroundings) (world : World Draws) :
    Invocation → Effects × World Draws
  | .help page => ({ output := "\n", console := page.display }, world)
  | .nothing page => ({ misused with console := page.display }, world)
  | .version => ({ output := s!"{programName}, version {version}\n" }, world)
  | .generate request => generate surroundings request world
  | .plugins => inspect surroundings "Plugins" Registry.pluginNames world
  | .transforms => inspect surroundings "Transforms" Registry.transformNames world
  | .misuse => (misused, world)

/-- Runs a command line. -/
def run [Wording] (surroundings : Surroundings) (arguments : List String) (world : World Draws) :
    Effects × World Draws :=
  perform surroundings world (invocation arguments)

end Template.CommandLine
