import Template.Script

/-!
# `Template.Plan` — work that is divided into parts

A plan says what there is to do for a document: a script for a part that is not divided any further, and for
one that is divided the plans of its parts with a way to put their values together. A plan does not fix
whether the parts are done one after another or at the same time.

* `Plan` — scripts at the leaves of a tree;
* `Plan.inOrder` — the script that does one part after the other.

For doing all parts at the same time see `Template.Rounds`.
-/

namespace Template

/-- Work that is divided into parts. -/
inductive Plan (σ ε α : Type) where
  /-- Work that is not divided. -/
  | work (script : Script σ ε α)
  /-- Work in parts, whose values make up one value. -/
  | split (build : List α → α) (parts : List (Plan σ ε α))

namespace Plan

variable {σ ε α : Type}

mutual

/-- One part after the other; the first error ends it all. -/
def inOrder : Plan σ ε α → Script σ ε α
  | work script => script
  | split build parts => do return build (← inOrderAll parts)

/-- The values of several plans, one plan after the other. -/
def inOrderAll : List (Plan σ ε α) → Script σ ε (List α)
  | [] => return []
  | plan :: rest => do
    let value ← plan.inOrder
    return value :: (← inOrderAll rest)

end

end Plan

end Template
