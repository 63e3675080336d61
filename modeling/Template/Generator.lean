import Template.Number.Reader
import Template.Plugin

/-!
# `Template.Generator` — identifiers, numbers, texts and truth values

The module `gen` gives test data. Each of its actions takes the value from its first argument, if that is
there and not empty, and otherwise makes one up from random numbers. Which random numbers these are is up to
the caller: they come from an endless row of which the plugin only uses up the front (`Draws`). An action that
takes its value from an argument, or fails, uses up none.

* `Draws` — the random numbers;
* `Action`, `actions` — what can be asked for;
* `Action.read` — a value from an argument;
* `Action.draw` — a random value;
* `plugin` — both together.
-/

namespace Template

/-! ## Random numbers -/

/-- An endless row of random numbers, and how many of them are used up. -/
structure Draws where
  /-- The numbers by their places. -/
  source : Nat → Nat
  /-- How many are used up. -/
  used : Nat := 0

namespace Draws

/-- Takes the next number. -/
def next (draws : Draws) : Nat × Draws :=
  (draws.source draws.used, { draws with used := draws.used + 1 })

/-- Takes a number of numbers. -/
def take : (count : Nat) → Draws → List Nat × Draws
  | 0, draws => ([], draws)
  | count + 1, draws =>
    let (n, draws) := draws.next
    let (others, draws) := take count draws
    (n :: others, draws)

theorem used_take (count : Nat) (draws : Draws) : (take count draws).2.used = draws.used + count := by
  induction count generalizing draws with
  | zero => rfl
  | succ count ih => simp only [take, ih, next]; omega

theorem source_take (count : Nat) (draws : Draws) : (take count draws).2.source = draws.source := by
  induction count generalizing draws with
  | zero => rfl
  | succ count ih => simp only [take, ih, next]

end Draws

namespace Generator

/-- The module. -/
def name : String := "gen"

/-- What can be asked for. -/
inductive Action where
  /-- A random UUID, or any other identifier. -/
  | identifier
  /-- A number. -/
  | number
  /-- A text. -/
  | text
  /-- A truth value. -/
  | boolean
deriving DecidableEq

/-- The words for the actions. -/
def actions : List (String × Action) :=
  [("uuid", .identifier), ("number", .number), ("zugnummer", .number), ("string", .text),
    ("boolean", .boolean)]

/-! ## Values from an argument -/

/-- An argument as the value of an action; `asked` is the word for the action. -/
def Action.read (action : Action) (asked argument : String) : Except Cause Json :=
  match action with
  | .identifier | .text => .ok (.string argument)
  | .number =>
    match Number.read argument.toList false with
    | .ok n => .ok (.number n)
    | .error _ => .error (.rejected name asked s!"invalid number '{argument}'")
  | .boolean =>
    let word := String.ofList (Text.fold argument.toList)
    if ["true", "1", "yes"].contains word then .ok (.bool true)
    else if ["false", "0", "no"].contains word then .ok (.bool false)
    else .error (.rejected name asked s!"invalid boolean '{argument}'")

/-! ## Random values -/

/-- The UUID of version 4 that a number gives. Of its 128 bits, six make room for the version and the
variant. -/
def uuid (n : Nat) : List Char :=
  Text.paddedHex 8 (n / Nat.pow 2 96 % Nat.pow 2 32) ++ '-' ::
  Text.paddedHex 4 (n / Nat.pow 2 80 % Nat.pow 2 16) ++ '-' ::
  '4' :: Text.paddedHex 3 (n / Nat.pow 2 64 % Nat.pow 2 12) ++ '-' ::
  Text.paddedHex 4 (Nat.pow 2 15 + n / Nat.pow 2 48 % Nat.pow 2 14) ++ '-' ::
  Text.paddedHex 12 (n % Nat.pow 2 48)

/-- The characters of random texts. -/
def alphabet : List Char :=
  "abcdefghijklmnopqrstuvwxyzABCDEFGHIJKLMNOPQRSTUVWXYZ0123456789".toList

/-- The character of random texts that a number gives. -/
def letter (n : Nat) : Char :=
  alphabet.getD (n % alphabet.length) 'a'

/-- How long random texts are. -/
def textLength : Nat := 8

/-- Random numbers are below this. -/
def numberLimit : Nat := 10000

/-- A random value. -/
def Action.draw (action : Action) (draws : Draws) : Json × Draws :=
  match action with
  | .identifier =>
    let (n, draws) := draws.next
    (.string (String.ofList (uuid n)), draws)
  | .number =>
    let (n, draws) := draws.next
    (.int (n % numberLimit : Nat), draws)
  | .text =>
    let (ns, draws) := draws.take textLength
    (.string (String.ofList (ns.map letter)), draws)
  | .boolean =>
    let (n, draws) := draws.next
    (.bool (500 ≤ n % 1000), draws)

/-! ## The plugin -/

/-- The first argument, unless it is empty. -/
def given? : List String → Option String
  | [] => none
  | argument :: _ => if argument.isEmpty then none else some argument

/-- The cause of failure for an unknown action. -/
def unknown (asked : String) : Cause :=
  let available := ", ".intercalate (actions.map (·.1))
  .rejected name asked s!"unknown action '{asked}'. Available: {available}"

/-- The value for an action and its arguments. -/
def answer (asked : String) (arguments : List String) (draws : Draws) : Except Cause Json × Draws :=
  match actions.lookup asked with
  | none => (.error (unknown asked), draws)
  | some action =>
    match given? arguments with
    | some argument => (action.read asked argument, draws)
    | none =>
      let (value, draws) := action.draw draws
      (.ok value, draws)

/-- The plugin for the module `gen`. -/
def plugin : Plugin Draws where
  name
  resolve placeholder _ draws :=
    let (value, draws) := answer placeholder.action placeholder.args draws
    ({ answer := value.map .value }, draws)

end Generator

end Template
