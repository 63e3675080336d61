import Template.Clock
import Template.Document
import Template.Generator
import Template.Settings
import Template.Transform

/-!
# `Template.Engine` — templates filled in

An engine is settings together with a registry. It fills in templates: documents and plain texts. A template
can also be filled in by phases, each of which asks modules of its own and leaves the tokens of all others as
they are; what comes out of that is meant to be compared with another document, but comparison is not there
yet.

* `Engine`, `Engine.standard` — engines, and the one with the modules `gen` and `time`;
* `Engine.registerPlugins`, `Engine.registerTransforms` — registration, with a note for everything new;
* `Engine.generate` — a template filled in;
* `Engine.compare`, `Engine.compareByPhases` — comparison;
* `Engine.report` — the outcome of filling in a template, for a command line;
* `Engine.tryReport` — the same where words may be missing, which ends in an error and not in a report.
-/

namespace Template

/-- Settings together with the plugins and transforms. -/
structure Engine (σ : Type) where
  /-- The settings. -/
  settings : Settings := {}
  /-- The plugins and transforms. -/
  registry : Registry σ := {}

namespace Engine

variable {σ : Type}

/-! ## Registration -/

/-- Notes that something is registered. -/
def noteRegistered (kind : String) (names : List String) (world : World σ) : World σ :=
  names.foldl (fun world name => world.note s!"Registered {kind} '{name}'") world

/-- Registers plugins up to the first that is refused. -/
def registerPlugins (engine : Engine σ) (plugins : List (Candidate (Plugin σ))) (world : World σ) :
    Engine σ × Option RegistrationFault × World σ :=
  let (registry, fault) := engine.registry.addPlugins plugins
  let added := registry.pluginNames.drop engine.registry.plugins.length
  ({ engine with registry }, fault, noteRegistered "plugin" added world)

/-- Registers transforms up to the first that is refused. -/
def registerTransforms (engine : Engine σ) (transforms : List (Candidate Transform))
    (world : World σ) : Engine σ × Option RegistrationFault × World σ :=
  let (registry, fault) := engine.registry.addTransforms transforms
  let added := registry.transformNames.drop engine.registry.transforms.length
  ({ engine with registry }, fault, noteRegistered "transform" added world)

/-- Takes everything out of the registry. -/
def clear (engine : Engine σ) : Engine σ :=
  { engine with registry := engine.registry.clear }

/-- The engine with the modules `gen` and `time` and the standard transforms. -/
def standard (settings : Settings) (now : Moment) (world : World Draws) :
    Engine Draws × World Draws :=
  let (engine, _, world) := registerPlugins { settings }
    [.fit Generator.plugin, .fit (Clock.plugin now)] world
  let (engine, _, world) := engine.registerTransforms (Transform.standard.map .fit) world
  (engine, world)

/-! ## Generation -/

/-- What a run with the given options works with. -/
def setting (engine : Engine σ) (options : Options) : Setting σ where
  registry := engine.registry
  options
  maxPasses := engine.settings.maxPasses
  strict := engine.settings.strict

/-- A document with its tokens replaced, indented as the settings say. A negative indentation is none, but
still puts every part on a line of its own. -/
def generateDocument [Wording] (engine : Engine σ) (options : Options) (content : List Char)
    (world : World σ) : Except Failure (List Char) × World σ :=
  match Json.read content with
  | .error fault =>
    (.error (.unreadable (.json fault)), world.note s!"Invalid JSON input: {fault.message}")
  | .ok value =>
    let (result, world) := (engine.setting options).fill [] value world
    (result.bind fun filled =>
      (Wording.document (.indented engine.settings.indent.toNat) filled).mapError .stated, world)

/-- A template with its tokens replaced. -/
def generate [Wording] (engine : Engine σ) (options : Options) (content : List Char) (world : World σ) :
    Except Failure (List Char) × World σ :=
  match options.format with
  | .json => engine.generateDocument options content world
  | .text => ((engine.setting options).fillText content).run world
  | .xml =>
    (.error (.unsupported (.format .xml)),
      world.note s!"Format '{Format.xml.name}' requested but not implemented")

/-! ## Comparison -/

/-- Compares a document with what is expected of it, which is not there yet. -/
def compare (_actual _expected : List Char) : Except Failure Unit :=
  .error (.unsupported .comparison)

/-- What happened in phases. -/
structure Phases where
  /-- The modules of every phase that was begun. -/
  begun : List (List String)
  /-- The filled-in template that was compared, if all phases came to their end. -/
  expected : Option (List Char)
  /-- How it ended. -/
  outcome : Except Failure Unit

/-- The phases in which a template is filled in if nothing else is said. -/
def standardPhases : List (List String) := [[Generator.name], [Clock.name]]

/-- Fills in a template phase by phase, where every phase asks the given modules only. The result is the
template after all phases or a failure, together with the phases that were begun. -/
def generateByPhases (engine : Engine σ) (options : Options) :
    (phases : List (List String)) → List Char → World σ →
      (List (List String) × Except Failure (List Char)) × World σ
  | [], template, world => (([], .ok template), world)
  | phase :: rest, template, world =>
    match engine.generate { options with included := some phase } template world with
    | (.error failure, world) => (([phase], .error failure), world)
    | (.ok template, world) =>
      let ((begun, result), world) := generateByPhases engine options rest template world
      ((phase :: begun, result), world)

/-- Fills in a template phase by phase and compares a document with the result. -/
def compareByPhases (engine : Engine σ) (options : Options) (phases : List (List String))
    (template actual : List Char) (world : World σ) : Phases × World σ :=
  let ((begun, result), world) := engine.generateByPhases options phases template world
  match result with
  | .error failure => ({ begun, expected := none, outcome := .error failure }, world)
  | .ok expected => ({ begun, expected := some expected, outcome := compare actual expected }, world)

/-! ## Reports -/

/-- The outcome of filling in a template. -/
structure Report where
  /-- The result; empty after a failure. -/
  text : List Char
  /-- What went wrong, if anything did. -/
  error : Option String := none

/-- Whether there is a result. -/
def Report.success (report : Report) : Bool := report.error.isNone

/-- The exit code of a program that ends with a report. -/
def Report.exitCode (report : Report) : Nat := if report.success then 0 else 1

/-- Fills in a template and reports the outcome. -/
def report (engine : Engine σ) (options : Options) (content : List Char) (world : World σ) :
    Report × World σ :=
  match engine.generate options content world with
  | (.ok text, world) => ({ text }, world)
  | (.error failure, world) =>
    ({ text := [], error := some failure.message },
      world.note s!"Generation failed: {failure.message}")

/-- Fills in a template and reports the outcome. Only errors of the engine are reported; one that stands in for the
words of something is not, and nothing else comes out of the run. -/
def tryReport [Wording] (engine : Engine σ) (options : Options) (content : List Char) (world : World σ) :
    Except String Report × World σ :=
  match engine.generate options content world with
  | (.ok text, world) => (.ok { text }, world)
  | (.error (.stated error), world) => (.error error, world)
  | (.error failure, world) =>
    match failure.words with
    | .error error => (.error error, world)
    | .ok words => (.ok { text := [], error := some words }, world.note s!"Generation failed: {words}")

end Engine

end Template
