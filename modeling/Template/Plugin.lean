import Template.Error

/-!
# `Template.Plugin` — what gives tokens their values

A plugin answers for one module. It is asked with the parts of a token and the context of the run, may use
and change a state of its own kind, and answers with a value or with the reason why there is none; a state is
kept even then. An answer may take a number of turns, in which other work goes on.

A transform turns one value into another, or says why it cannot.

The types leave room for answers that are no values at all (`Outcome.foreign`), because plugins and
transforms are written by others: such an answer is an error of the token that asked.

* `Outcome`, `Reply`, `Plugin`, `Transform`.
-/

namespace Template

/-- What a plugin or a transform comes up with. -/
inductive Outcome where
  /-- A value. -/
  | value (value : Json)
  /-- Something of a foreign type, known by the name of that type. -/
  | foreign (typeName : String)

/-- The answer of a plugin. -/
structure Reply where
  /-- How many turns the answer takes. -/
  turns : Nat := 0
  /-- What it is. -/
  answer : Except Cause Outcome

/-- What gives the tokens of one module their values; `σ` is the state that the plugins of a run share. -/
structure Plugin (σ : Type) where
  /-- The module that the plugin answers for. -/
  name : String
  /-- The answer to a token in a context, and the state after it. -/
  resolve : Placeholder → Context → σ → Reply × σ

/-- What turns a value into another. -/
structure Transform where
  /-- The name by which tokens call it. -/
  name : String
  /-- The new value, for the given parameters. -/
  apply : Json → List String → Except Cause Outcome

/-- A plugin without state that answers at once. -/
def Plugin.pure {σ : Type} (name : String)
    (answer : Placeholder → Context → Except Cause Json) : Plugin σ where
  name
  resolve placeholder context state :=
    ({ answer := (answer placeholder context).map .value }, state)

/-- The value of an outcome; `source` is who came up with it. -/
def Outcome.toValue (source : String) : Outcome → Except Cause Json
  | .value v => .ok v
  | .foreign typeName => .error (.foreign source typeName)

end Template
