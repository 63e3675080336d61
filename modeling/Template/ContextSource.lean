import Template.Json.Reader
import Template.Text.Blank
import Template.Text.Line
import Template.Text.Search

/-!
# `Template.ContextSource` — where the context of a run comes from

On a command line the context of a run is put together from three sources, and later ones override earlier
ones:

1. the object `context` of the configuration file, where a missing or faulty file counts as empty;
2. a file that holds a JSON object;
3. single entries `KEY=VALUE`, where a value that is JSON is taken as that and any other value as text.

* `Fault` — what may be wrong with the second and the third;
* `readConfig`, `defaultContext` — the first;
* `ofFile` — the second;
* `ofPairs` — the third.
-/

namespace Template.ContextSource

/-- Why a source is refused. -/
inductive Fault where
  /-- An entry without a name or without a value. -/
  | notPair (entry : String)
  /-- A file that is not JSON. -/
  | notJson (fault : Json.Fault)
  /-- A file that holds something else than an object. -/
  | notObject
deriving DecidableEq

/-- The wording of a fault. -/
def Fault.message : Fault → String
  | .notPair entry => s!"'{entry}' is not of the form KEY=VALUE"
  | .notJson fault => s!"invalid JSON: {fault.message}"
  | .notObject => "must hold a JSON object"

/-- The option whose value is at fault. -/
def Fault.option : Fault → String
  | .notPair _ => "--context"
  | .notJson _ | .notObject => "--context-file"

/-! ## The configuration file -/

/-- The members of the configuration file, and what there is to note about it. `path` names the file in such
notes; `text` is what it holds, if it exists. -/
def readConfig (path : String) (text : Option (List Char)) : List (String × Json) × List String :=
  match text with
  | none => ([], [])
  | some text =>
    match Json.read (Text.unifyBreaks text) with
    | .ok (.object members) => (members, [])
    | .ok _ => ([], [s!"Config file {path} does not hold a JSON object"])
    | .error fault => ([], [s!"Could not read config file {path}: {fault.message}"])

/-- The context that a configuration file gives, and what there is to note. -/
def defaultContext (path : String) (text : Option (List Char)) :
    List (String × Json) × List String :=
  let (members, notes) := readConfig path text
  match Json.member? "context" members with
  | none => ([], notes)
  | some (.object context) => (context, notes)
  | some _ => ([], notes ++ [s!"Ignoring non-object 'context' in {path}"])

/-! ## A file and single entries -/

/-- The context that a file holds, if there is a file. -/
def ofFile (text : Option (List Char)) : Except Fault (List (String × Json)) :=
  match text with
  | none => .ok []
  | some text =>
    match Json.read (Text.unifyBreaks text) with
    | .ok (.object members) => .ok members
    | .ok _ => .error .notObject
    | .error fault => .error (.notJson fault)

/-- The value of an entry. -/
def valueOf (written : List Char) : Json :=
  match Json.read written with
  | .ok value => value
  | .error _ => .string (String.ofList written)

/-- The name and the value of an entry. -/
def ofPair (entry : String) : Except Fault (String × Json) :=
  match Text.cut? '=' entry.toList with
  | none => .error (.notPair entry)
  | some (name, written) =>
    let name := Text.trim name
    if name.isEmpty then .error (.notPair entry) else .ok (String.ofList name, valueOf written)

/-- The context that entries give. -/
def ofPairs (entries : List String) : Except Fault (List (String × Json)) :=
  (entries.mapM ofPair).map (Json.merge [])

end Template.ContextSource
