import Template.Path
import Template.Registry
import Template.Wording

/-!
# `Template.Resolve` — the value of one token

The value of a token is found in steps, and each may be the cause of a failure:

1. the token must not be nested more deeply than the options admit;
2. it is taken apart;
3. if its module may not be asked, its value is the token itself, as text;
4. the plugin of the module is asked;
5. the answer goes through the transforms of the token, from the left.

A failure names the token and its place, and leaves a note in the journal, which is written in the words for the cause
(`Template.Wording`).

* `Setting` — what a run works with;
* `checkDepth`, `applyTransforms`, `evaluate` — the steps;
* `resolve`, `checkToken` — the steps with failures placed.
-/

namespace Template

/-- What a run works with: plugins and transforms, options, and the limits of substitution. -/
structure Setting (σ : Type) where
  /-- The plugins and transforms. -/
  registry : Registry σ
  /-- How the run goes. -/
  options : Options := {}
  /-- The most passes of substitution over one text. -/
  maxPasses : Int := 10
  /-- Whether it is a failure that substitution has not settled after that many passes. -/
  strict : Bool := false

namespace Setting

variable {σ : Type} [Wording]

/-- Refuses a token that is nested too deeply. -/
def checkDepth (setting : Setting σ) (token : List Char) : Except Cause Unit :=
  match setting.options.maxDepth with
  | none => .ok ()
  | some limit =>
    if Token.depth token ≤ limit then .ok () else .error (.tooDeep (Token.depth token) limit)

/-- A value after transforms, in order. -/
def applyTransforms (registry : Registry σ) (value : Json) :
    List TransformCall → Except Cause Json
  | [] => .ok value
  | call :: rest => do
    let transform ← registry.findTransform call.name
    let outcome ← transform.apply value call.params
    applyTransforms registry (← outcome.toValue call.name) rest

/-- A well-formed token, as far as a plugin has to be asked for it: the plugin, or the value that is there
without asking. -/
def prepare (setting : Setting σ) (token : List Char) :
    Except Cause (Placeholder × Option (Plugin σ)) := do
  setting.checkDepth token
  match Placeholder.parse token with
  | .error fault => throw (.malformed fault)
  | .ok placeholder =>
    if setting.options.allows placeholder.module then
      return (placeholder, some (← setting.registry.findPlugin placeholder.module))
    else
      return (placeholder, none)

/-- The value of a token, or the cause for which it has none. -/
def evaluate (setting : Setting σ) (token : List Char) : Script σ Cause Json :=
  match setting.prepare token with
  | .error cause => .fail cause
  | .ok (_, none) => .done (.string (String.ofList token))
  | .ok (placeholder, some plugin) => do
    let answer ← Script.question plugin placeholder setting.options.context
    Script.ofExcept do
      let value ← (← answer).toValue placeholder.module
      applyTransforms setting.registry value placeholder.transforms

/-- Places a cause: notes it in the journal and fails. -/
def failAt {α : Type} (token : List Char) (path : Option Path) (cause : Cause) :
    Script σ Failure α := do
  let said ← Script.told (Wording.cause cause)
  let token := String.ofList token
  let place := path.map fun path => String.ofList path.format
  let shown := match place with
    | some place => String.ofList (Text.quoted place.toList)
    | none => "None"
  .note s!"Resolution of {token} failed at {shown}: {said}"
    (.fail (.unresolved token place cause))

/-- The value of a token that stands at a place. -/
def resolve (setting : Setting σ) (path : Option Path) (token : List Char) :
    Script σ Failure Json :=
  (setting.evaluate token).handle (failAt token path)

/-- Fails if a token is nested too deeply. -/
def checkToken (setting : Setting σ) (path : Option Path) (token : List Char) :
    Script σ Failure Unit :=
  match setting.checkDepth token with
  | .ok () => .done ()
  | .error cause => failAt token path cause

end Setting

end Template
