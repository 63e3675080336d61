import Std.Time.DateTime.Timestamp
import Template.CommandLine.Run

/-!
# `Template.Main` — the program

Reads what the program may need, calls `CommandLine.run`, and carries out its effects: results go to the
standard output or into a file, and what is shown goes to the standard error.
-/

namespace Template.Program

open CommandLine

/-- The variables that may hold settings. -/
def settingNames : List String :=
  ["PHE_BEQUIET", "PHE_MAXITERATIONS", "PHE_STRICTITERATIONS", "PHE_JSONINDENT",
    "PHE_CONCURRENTLEAVES"]

/-- The variables among them that are set. -/
def environment : IO (List (String × String)) :=
  settingNames.filterMapM fun name => do
    return (← IO.getEnv name).map (name, ·)

/-- The contents of a file, if it can be read. -/
def contents? (name : String) : IO (Option String) := do
  try
    return some (← IO.FS.readFile name)
  catch _ =>
    return none

/-- The name of the configuration file. -/
def configPath : IO String := do
  let folder ← match ← IO.getEnv "XDG_CONFIG_HOME" with
    | some folder => pure folder
    | none => pure (((← IO.getEnv "HOME").getD "") ++ "/.config")
  return s!"{folder}/{programName}/config.json"

/-- The current time. -/
def now : IO Moment := do
  let nanoseconds := (← Std.Time.Timestamp.now).toNanosecondsSinceUnixEpoch.val
  return (Moment.ofUnixMicros? (nanoseconds / 1000)).getD default

/-- One step of mixing the bits of a number. -/
def stir (shift factor n : Nat) : Nat :=
  ((n ^^^ (n >>> shift)) * factor) % Nat.pow 2 128

/-- Random numbers that start from a seed. -/
def drawsFrom (seed : Nat) : Draws where
  source place :=
    let start := (seed + (place + 1) * 0x9e3779b97f4a7c15f39cc0605cedc835) % Nat.pow 2 128
    let stirred := stir 64 0xaec17883c89b2d87fc0072fa0b15f4fd start
    stir 60 1 (stir 61 0xda942042e4dd58b5d1342543de82ef95 stirred)

/-- Random numbers. -/
def draws : IO Draws := do
  let bytes ← IO.getRandomBytes 16
  return drawsFrom (bytes.foldl (fun n byte => 256 * n + byte.toNat) 0)

/-- The files that a command line names, with what they hold. -/
def namedFiles : Invocation → IO (List (String × String))
  | .generate request =>
    ((request.source :: request.contextFile.toList).map tidyName).filterMapM fun name => do
      return (← contents? name).map (name, ·)
  | _ => return []

/-- The standard input, if a command line needs it. -/
def inputFor : Invocation → IO String
  | .generate request => do
    if request.source = "-" then readToEnd (← IO.getStdin) else return ""
  | _ => return ""
where
  /-- Reads a stream to its end. -/
  readToEnd (stream : IO.FS.Stream) : IO String := do
    let mut text := ""
    repeat
      let line ← stream.getLine
      if line.isEmpty then break
      text := text ++ line
    return text

/-- Carries out effects. -/
def carryOut (effects : Effects) : IO Unit := do
  for (name, text) in effects.files do
    IO.FS.writeFile name text
  for display in effects.console do
    for line in display.lines do
      IO.eprintln line
  IO.print effects.output

end Template.Program

open Template Template.Program in
/-- Runs the command line. -/
def main (arguments : List String) : IO UInt32 := do
  match Settings.ofEnvironment (← environment) with
  | .error invalid =>
    IO.eprintln ("Invalid settings: " ++ ", ".intercalate invalid.fields)
    return 1
  | .ok settings =>
    let asked := CommandLine.invocation arguments
    let files ← namedFiles asked
    let path ← configPath
    let surroundings : CommandLine.Surroundings := {
      settings
      now := ← now
      input := ← inputFor asked
      file? := fun name => files.lookup name
      configPath := path
      config := ← contents? path }
    let (effects, world) := CommandLine.perform surroundings { state := ← draws } asked
    unless settings.quiet do
      for message in world.journal do
        IO.eprintln message
    carryOut effects
    return effects.exitCode.toUInt32
