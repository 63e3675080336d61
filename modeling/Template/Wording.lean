import Template.Json.Printer
import Template.Script

/-!
# `Template.Wording` — how values and causes are put into words

Plugins and transforms are written by others. What one of them gives as a value may hold something that no document can
hold, and an attempt to write it is an error; what it refuses with may be an error that cannot even be told. A value of
the model then stands for what was really given, and a cause for what was really refused with: the wording says how that
is written or told, or with which error it is not.

Such an error is none of the engine's own. Nobody deals with it: it is not placed, noted or reported, and it ends the
run. It is kept as a failure in its own words (`Failure.stated`).

Unless another wording is said, everything has its words (`Wording.plain`). This is so for all values that are read from
documents, and for all values and causes of the modules and transforms that come with the engine. Only where something
is out of range, the plain words are a sign, and another wording may have what the system says of it.

* `Wording`, `Wording.plain` — the words for values and causes;
* `Wording.Refuses` — an error that may come up;
* `Failure.words` — the words for a failure;
* `Script.told` — a script that goes on with the words.
-/

namespace Template

/-- How values and causes are put into words, or with which error they are not. -/
class Wording where
  /-- The text of a value inside running text. -/
  text : Json → Except String (List Char)
  /-- The text of a value as a document. -/
  document : Layout → Json → Except String (List Char)
  /-- The words for a cause. -/
  cause : Cause → Except String String

namespace Wording

/-- Everything has its words. -/
instance plain : Wording where
  text value := .ok value.asText
  document layout value := .ok (value.print layout)
  cause cause := .ok cause.message

/-- Some value or cause is not put into words, with the given error. -/
inductive Refuses [Wording] (error : String) : Prop where
  | text {value : Json} (h : Wording.text value = .error error)
  | document {layout : Layout} {value : Json} (h : Wording.document layout value = .error error)
  | cause {cause : Cause} (h : Wording.cause cause = .error error)

/-- Nothing is refused by the wording that has words for everything. -/
theorem not_refuses_plain {error : String} : ¬ Refuses error := by
  intro h
  cases h with
  | text h => cases h
  | document h => cases h
  | cause h => cases h

end Wording

/-- The words for a failure. -/
def Failure.words [Wording] : Failure → Except String String
  | .unresolved token path cause => do
    let said ← Wording.cause cause
    let place := match path with
      | some path => s!" at path \"{path}\""
      | none => ""
    return s!"Failed to resolve placeholder \"{token}\"{place}: {said}"
  | failure => .ok failure.message

/-- A script that goes on with the words for something, or ends with the error that there is instead. -/
def Script.told {σ α : Type} : Except String α → Script σ Failure α
  | .ok words => .done words
  | .error error => .fail (.stated error)

end Template
