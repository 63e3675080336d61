import Template.Rounds
import Template.Substitution

/-!
# `Template.Document` — documents with their tokens replaced

Only the strings of a document are looked at; names, numbers and the shape stay as they are. A string that
is a single token becomes the value of that token, whatever its shape. A string that holds tokens among other
text stays a string.

The work is laid out as a plan in the shape of the document. It is done part by part in the order of the
document, or all parts at the same time, as the options say.

* `fillString` — one string;
* `plan` — a whole value;
* `fill` — a value with its tokens replaced.
-/

namespace Template

/-- Whether `text`, up to blanks around it, is one token and nothing else, and no token is inside of it. -/
def Token.isSingle (text : List Char) : Bool :=
  Token.isToken text && (Token.tokens text).length == 1

namespace Setting

variable {σ : Type} [Wording]

/-- A string of a document. -/
def fillString (setting : Setting σ) (path : Path) (s : String) : Script σ Failure Json :=
  let text := s.toList
  if (Token.tokens text).isEmpty then
    return .string s
  else if Token.isSingle text then
    setting.resolve (some path) text
  else do
    let result ← setting.substitute (some path) text
    if !Token.isToken text then
      return .string (String.ofList result.text)
    else
      match result.single with
      | some value => return value
      | none =>
        if Token.isSingle result.text then
          setting.resolve (some path) result.text
        else
          return .string (String.ofList result.text)

mutual

/-- What there is to do for a value of a document: its strings are work, and a value with parts is put
together from these. -/
def plan (setting : Setting σ) (path : Path) : Json → Plan σ Failure Json
  | .string s => .work (setting.fillString path s)
  | .array items => .split .array (setting.plansOfItems path 0 items)
  | .object members =>
    .split (fun values => .object ((members.map (·.1)).zip values)) (setting.plansOfMembers path members)
  | .null => .work (return .null)
  | .bool b => .work (return .bool b)
  | .number n => .work (return .number n)

/-- The same for the items of an array, from the one with the given number on. -/
def plansOfItems (setting : Setting σ) (path : Path) (index : Nat) : List Json → List (Plan σ Failure Json)
  | [] => []
  | item :: rest =>
    setting.plan (path ++ [.index index]) item :: setting.plansOfItems path (index + 1) rest

/-- The same for the members of an object. -/
def plansOfMembers (setting : Setting σ) (path : Path) :
    List (String × Json) → List (Plan σ Failure Json)
  | [] => []
  | (name, value) :: rest =>
    setting.plan (path ++ [.name name]) value :: setting.plansOfMembers path rest

end

/-- A value of a document that stands at a place, with its tokens replaced. -/
def fill (setting : Setting σ) (path : Path) (value : Json) (world : World σ) :
    Except Failure Json × World σ :=
  let plan := setting.plan path value
  if setting.options.concurrent then plan.together world else plan.inOrder.run world

end Setting

end Template
