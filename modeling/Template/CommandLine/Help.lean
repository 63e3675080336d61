import Template.CommandLine.Display
import Template.Json.Basic

/-!
# `Template.CommandLine.Help` — the help pages

Groups of commands list their commands and options; commands show a panel with their usage and arguments, and
their options below.

* `usageText` — the text of a panel;
* `Entry`, `Page`, `Page.display` — a page and how it is shown;
* `rootPage`, `generatePage`, `registryPage`, `pluginsPage`, `transformsPage` — the pages.
-/

namespace Template.CommandLine

open Markup

/-- The name of the program. -/
def programName : String := "phengine"

/-- The text of a panel. An argument that is described twice keeps its first place and its last
description. -/
def usageText (command description usage : String) (arguments : List (String × String)) : String :=
  let listed := (Json.merge [] arguments).map fun (name, text) =>
    "    " ++ styled "green" name ++ ": " ++ text ++ "\n"
  styled "bold cyan" command ++ ": " ++ description ++ "\n\n" ++
    styled "bold yellow" "Usage:" ++ "\n    " ++ styled "green" usage ++ "\n\n" ++
    styled "bold yellow" "Arguments:" ++ "\n" ++ String.join listed

/-- A command or an option, with what a page says about it. -/
structure Entry where
  /-- Its name. -/
  name : String
  /-- What it does. -/
  text : String

/-- A help page. -/
inductive Page where
  /-- The page of a group that is called by `path`. -/
  | group (path introduction : String) (commands options : List Entry)
  /-- The page of a command. -/
  | command (panel : String) (options : List Entry)

namespace Page

/-- The options as a page lists them. -/
def showOptions (options : List Entry) : List Display :=
  .text (styled "bold yellow" "Options:") ::
    options.map fun option => .text ("- " ++ styled "cyan" option.name ++ ": " ++ option.text)

/-- A page as it is shown. -/
def display : Page → List Display
  | .group path introduction commands options =>
    let usage := styled "bold yellow" "Usage:"
    let form := styled "magenta" "[OPTIONS] COMMAND [ARGS]..."
    let listed := commands.map fun command =>
      Display.text ("- " ++ styled "cyan" command.name ++ ": " ++ styled "white" command.text)
    [.text (usage ++ " " ++ styled "cyan" path ++ " " ++ form ++ "\n"),
      .text (styled "bold cyan" introduction ++ "\n"),
      .text (styled "bold green" "Available Commands:")] ++
    listed ++ [.text ""] ++ showOptions options
  | .command panel options => .framed panel :: showOptions options

end Page

/-- The option that shows a page. -/
def helpEntry : Entry := ⟨"--help", "Show this message and exit."⟩

/-- The page of the program. -/
def rootPage : Page :=
  .group programName
    ("Placeholder Engine\n\n    " ++
      "Resolve \x7b\x7bmodule:action:args|transforms\x7d\x7d placeholders in JSON and text.")
    [⟨"generate", "Resolve placeholders in a document"⟩,
      ⟨"registry", "Inspect registered plugins and transforms"⟩]
    [⟨"--version", "Show the version and exit."⟩, helpEntry]

/-- The page of the command that fills in a template. -/
def generatePage : Page :=
  .command
    (usageText "generate" "Resolve all placeholders in a JSON document or text"
      s!"{programName} generate [FILE] [OPTIONS]"
      [("FILE", "input file; stdin when omitted or '-'"),
        ("--format", "json (default), text, or xml"),
        ("--include", "only resolve this module (repeatable)"),
        ("--exclude", "never resolve this module (repeatable)"),
        ("--context", "context entry KEY=VALUE (repeatable)"),
        ("--context-file", "JSON file of context entries"),
        ("--output", "write the result to this file"),
        ("--max-depth", "maximum placeholder nesting depth"),
        ("--concurrent", "resolve sibling values concurrently")])
    [⟨"--format", "Input format"⟩, ⟨"--include", "Only resolve these modules"⟩,
      ⟨"--exclude", "Never resolve these modules"⟩, ⟨"--context", "Context KEY=VALUE"⟩,
      ⟨"--context-file", "JSON file of context entries"⟩,
      ⟨"--output", "Output file (default: stdout)"⟩,
      ⟨"--max-depth", "Maximum placeholder nesting depth"⟩,
      ⟨"--concurrent", "Resolve sibling values concurrently"⟩, helpEntry]

/-- The page of the group that shows the registry. -/
def registryPage : Page :=
  .group s!"{programName} registry"
    "Registry Inspection\n\n    Show what the standard engine can resolve."
    [⟨"plugins", "List registered plugins"⟩, ⟨"transforms", "List registered transforms"⟩]
    [helpEntry]

/-- The page of the command that lists the plugins. -/
def pluginsPage : Page :=
  .command
    (usageText "plugins" "List the modules placeholders can address"
      s!"{programName} registry plugins" [("<None>", "no arguments")])
    [helpEntry]

/-- The page of the command that lists the transforms. -/
def transformsPage : Page :=
  .command
    (usageText "transforms" "List the transforms usable after '|'"
      s!"{programName} registry transforms" [("<None>", "no arguments")])
    [helpEntry]

end Template.CommandLine
