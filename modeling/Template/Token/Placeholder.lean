import Template.Token.Scan

/-!
# `Template.Token.Placeholder` — what a token says

    token   ::= '{{' module ':' action (':' argument)* ('|' name (':' parameter)*)* '}}'

Every segment may hold whole tokens of its own: separators inside of those do not separate. In front of the
first bar a backslash before a colon makes it a plain colon. Segments are trimmed, and a last segment
without any character is dropped.

* `Placeholder`, `TransformCall` — the parts of a token;
* `Malformed` — why a text is no well-formed token;
* `segments` — a text cut at its separators;
* `Placeholder.parse` — the parts of a token, or what is wrong with it.
-/

namespace Template

/-- One transform of a token, with its parameters. -/
structure TransformCall where
  /-- The name of the transform. -/
  name : String
  /-- Its parameters. -/
  params : List String
deriving DecidableEq

/-- The parts of a token. -/
structure Placeholder where
  /-- The token itself, without surrounding blanks. -/
  token : String
  /-- The module that is asked. -/
  module : String
  /-- What it is asked for. -/
  action : String
  /-- The arguments of the action. -/
  args : List String
  /-- What happens to the answer, in order. -/
  transforms : List TransformCall
deriving DecidableEq

/-- Why a text is no well-formed token. -/
inductive Malformed where
  /-- The text does not look like a token. -/
  | notToken (text : String)
  /-- There are not two segments in front of the first bar. -/
  | tooFewSegments (main : String)
  /-- The module or the action is empty. -/
  | emptySegment (token : String)
  /-- A transform has no name. -/
  | emptyTransform (token : String)
  /-- A fault in a plugin's own words. -/
  | stated (text : String)
deriving DecidableEq

/-- The wording of a fault. -/
def Malformed.message : Malformed → String
  | .notToken text => s!"Invalid placeholder format: {text}"
  | .tooFewSegments main =>
    s!"Invalid placeholder format. Expected at least module:action, got: {main}"
  | .emptySegment token => s!"Placeholder module and action must not be empty: {token}"
  | .emptyTransform token => s!"Empty transform name in placeholder: {token}"
  | .stated text => text

namespace Token

/-- Cuts a text at every `separator` outside of tokens. With `escapes`, a backslash before a colon stands
for a plain colon. `opened` tokens are open, and `current` holds the segment being read, its last character
first. -/
def segmentsFrom (separator : Char) (escapes : Bool) (opened : Nat) (current : List Char) :
    List Char → List (List Char)
  | '{' :: '{' :: rest => segmentsFrom separator escapes (opened + 1) ('{' :: '{' :: current) rest
  | '}' :: '}' :: rest =>
    match opened with
    | 0 => segmentsFrom separator escapes 0 ('}' :: current) ('}' :: rest)
    | d + 1 => segmentsFrom separator escapes d ('}' :: '}' :: current) rest
  | '\\' :: ':' :: rest =>
    if escapes then segmentsFrom separator escapes opened (':' :: current) rest
    else segmentsFrom separator escapes opened ('\\' :: current) (':' :: rest)
  | c :: rest =>
    if c = separator ∧ opened = 0 then
      Text.trim current.reverse :: segmentsFrom separator escapes 0 [] rest
    else
      segmentsFrom separator escapes opened (c :: current) rest
  | [] => if current.isEmpty then [] else [Text.trim current.reverse]

/-- The trimmed segments of a text between separators outside of tokens. -/
def segments (separator : Char) (escapes : Bool) (text : List Char) : List (List Char) :=
  segmentsFrom separator escapes 0 [] text

end Token

/-- The transform that a segment behind a bar names, if it names one. -/
def TransformCall.parse? (text : List Char) : Option TransformCall :=
  match (Text.splitOn ':' text).map Text.trim with
  | [] => none
  | name :: params =>
    if name.isEmpty then none
    else some { name := String.ofList name, params := params.map String.ofList }

/-- The parts of a token, which may have blanks around it. -/
def Placeholder.parse (text : List Char) : Except Malformed Placeholder := do
  let trimmed := Text.trim text
  let token := String.ofList trimmed
  if !Token.isToken trimmed then
    throw (.notToken (String.ofList text))
  let parts := Token.segments '|' false (Token.interior trimmed)
  let main := parts.headD []
  match Token.segments ':' true main with
  | module :: action :: args =>
    if module.isEmpty || action.isEmpty then
      throw (.emptySegment token)
    let transforms ← parts.tail.mapM fun part =>
      match TransformCall.parse? part with
      | some transform => .ok transform
      | none => .error (.emptyTransform token)
    return {
      token
      module := String.ofList module
      action := String.ofList action
      args := args.map String.ofList
      transforms }
  | _ => throw (.tooFewSegments (String.ofList main))

end Template
