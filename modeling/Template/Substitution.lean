import Template.Resolve

/-!
# `Template.Substitution` — texts with their tokens replaced

Tokens are replaced from the inside out, in passes. A pass finds the tokens of the text, and of these takes
the ones that hold no other: each is resolved, and every occurrence of it is replaced by the text of its
value. A value may bring new tokens, and so may a token that is complete only now, so there is another pass,
until a pass changes nothing or finds no token. The number of passes is limited; a text that has not settled
by then is left as it is, or is a failure, as the setting says.

When a pass finds the whole text to be a single token, the value itself is kept as well, because a string of
a document that is a single token becomes that value.

* `Filled` — a text, and the value that it came from if it was a single token;
* `replaceToken`, `pass`, `passes` — one token, one pass, all passes;
* `substitute` — the whole, with its failure;
* `fillText` — a plain text with its tokens replaced.
-/

namespace Template

/-- A text on its way. -/
structure Filled where
  /-- The text. -/
  text : List Char
  /-- The value of the last pass, if that found a single token and nothing else. -/
  single : Option Json := none

namespace Setting

variable {σ : Type} [Wording]

/-- Replaces one token of a pass; a token that is gone by now is passed over. `found` are all tokens that the
pass has found. -/
def replaceToken (setting : Setting σ) (path : Option Path) (found : List (List Char))
    (current : Filled) (token : List Char) : Script σ Failure Filled :=
  if Text.occursIn token current.text then do
    let value ← setting.resolve path token
    let text ← Script.told (Wording.text value)
    let alone := found.length == 1 && token == Text.trim current.text
    return {
      text := Text.replaceAll token text current.text
      single := if alone then some value else current.single }
  else
    return current

/-- Replaces tokens one after another. -/
def replaceTokens (setting : Setting σ) (path : Option Path) (found : List (List Char)) :
    List (List Char) → Filled → Script σ Failure Filled
  | [], current => .done current
  | token :: rest, current => do
    replaceTokens setting path found rest (← setting.replaceToken path found current token)

/-- Checks tokens one after another. -/
def checkTokens (setting : Setting σ) (path : Option Path) :
    List (List Char) → Script σ Failure Unit
  | [] => .done ()
  | token :: rest => do
    setting.checkToken path token
    checkTokens setting path rest

/-- A pass over a text in which `found` are the tokens. -/
def pass (setting : Setting σ) (path : Option Path) (found : List (List Char)) (text : List Char) :
    Script σ Failure Filled := do
  setting.checkTokens path found
  setting.replaceTokens path found (Token.innermost found) { text }

/-- At most `limit` passes: the text after the last one, and whether it has settled. -/
def passes (setting : Setting σ) (path : Option Path) :
    (limit : Nat) → Filled → Script σ Failure (Filled × Bool)
  | 0, current => .done (current, false)
  | limit + 1, current =>
    match Token.tokens current.text with
    | [] => .done (current, true)
    | found => do
      let next ← setting.pass path found current.text
      if next.text = current.text then
        return (next, true)
      else
        passes setting path limit next

/-- A text with its tokens replaced. -/
def substitute (setting : Setting σ) (path : Option Path) (text : List Char) :
    Script σ Failure Filled := do
  let (result, settled) ← setting.passes path setting.maxPasses.toNat { text }
  if settled || (Token.tokens result.text).isEmpty then
    return result
  else
    let shown := String.ofList result.text
    .note s!"Substitution stopped after {setting.maxPasses.toNat} passes: {shown}" <|
      if setting.strict then .fail (.unsettled shown setting.maxPasses) else .done result

/-- A plain text with its tokens replaced. -/
def fillText (setting : Setting σ) (text : List Char) : Script σ Failure (List Char) :=
  match Token.tokens text with
  | [] => .done text
  | _ => do
    return (← setting.substitute none text).text

end Setting

end Template
