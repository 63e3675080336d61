import Template.Proofs.Cut
import Template.Proofs.Passes

/-!
# `Template.Proofs.Calls` — which tokens are resolved, and when

Substitution hands tokens over to be resolved, one after the other. Which ones these are depends on what has come
of those before, and so on the plugins and their state. `Setting.calls` lists them for a run, with the world in
which each is handed over, and one list for each pass. It follows the run pass by pass and token by token.

The list is the whole of what substitution does to the plugins: the questions of a run are those of its calls, in
order (`asked_substitute`).

## Contents
- `Call`, `Setting.calls` — the tokens that are resolved in a run, pass by pass.
- `asked_replaceTokens`, `asked_pass`, `asked_substitute` — calls and questions.
-/

namespace Template

variable {σ : Type}

/-- A token that is handed over to be resolved, and the world in which it is. -/
structure Call (σ : Type) where
  token : List Char
  world : World σ

namespace Setting

open Script

/-! ## Calls -/

/-- The tokens that are resolved when those of a list are replaced. -/
def callsOfTokens (setting : Setting σ) (path : Option Path) (found : List (List Char)) :
    List (List Char) → Filled → World σ → List (Call σ)
  | [], _, _ => []
  | token :: rest, current, world =>
    let own := if Text.occursIn token current.text then [{ token, world }] else []
    match (setting.replaceToken path found current token).run world with
    | (.ok next, world) => own ++ callsOfTokens setting path found rest next world
    | (.error _, _) => own

/-- The tokens that are resolved in a pass. -/
def callsOfPass (setting : Setting σ) (path : Option Path) (found : List (List Char)) (text : List Char)
    (world : World σ) : List (Call σ) :=
  match (setting.checkTokens path found).run world with
  | (.ok _, world) => setting.callsOfTokens path found (Token.innermost found) { text } world
  | (.error _, _) => []

/-- The tokens that are resolved in at most `limit` passes, one list for each pass over a text with tokens. -/
def callsOfPasses (setting : Setting σ) (path : Option Path) :
    (limit : Nat) → Filled → World σ → List (List (Call σ))
  | 0, _, _ => []
  | limit + 1, current, world =>
    match Token.tokens current.text with
    | [] => []
    | found =>
      setting.callsOfPass path found current.text world ::
        match (setting.pass path found current.text).run world with
        | (.ok next, world) =>
          if next.text = current.text then [] else callsOfPasses setting path limit next world
        | (.error _, _) => []

/-- The tokens that are resolved when a text is substituted, pass by pass. -/
def calls (setting : Setting σ) (path : Option Path) (text : List Char) (world : World σ) :
    List (List (Call σ)) :=
  setting.callsOfPasses path setting.maxPasses.toNat { text } world

/-- The questions that are asked for a call. -/
def askedFor (setting : Setting σ) (path : Option Path) (call : Call σ) : List (Question σ) :=
  (setting.resolve path call.token).asked call.world

variable {setting : Setting σ} {path : Option Path} {found : List (List Char)} {world : World σ}

theorem callsOfPasses_of_no_tokens (limit : Nat) {current : Filled} (ht : Token.tokens current.text = []) :
    setting.callsOfPasses path limit current world = [] := by
  cases limit with
  | zero => rfl
  | succ limit => rw [callsOfPasses, ht]

theorem callsOfPasses_succ (limit : Nat) {current : Filled} (ht : Token.tokens current.text ≠ []) :
    setting.callsOfPasses path (limit + 1) current world =
      setting.callsOfPass path (Token.tokens current.text) current.text world ::
        match (setting.pass path (Token.tokens current.text) current.text).run world with
        | (.ok next, world) =>
          if next.text = current.text then [] else setting.callsOfPasses path limit next world
        | (.error _, _) => [] := by
  rw [callsOfPasses]
  split
  · exact absurd ‹_› ht
  · rfl

/-! ## Questions -/

/-- Tokens are checked without a question. -/
theorem asked_checkTokens (tokens : List (List Char)) : (setting.checkTokens path tokens).asked world = [] := by
  induction tokens with
  | nil => rfl
  | cons token rest ih =>
    rw [checkTokens, checkToken]
    cases setting.checkDepth token with
    | ok admitted => exact ih
    | error cause => rfl

/-- For a token that is there, the questions are those of its call; for one that is gone, there are none. -/
theorem asked_replaceToken (current : Filled) (token : List Char) :
    (setting.replaceToken path found current token).asked world =
      if Text.occursIn token current.text then setting.askedFor path { token, world } else [] := by
  by_cases hin : Text.occursIn token current.text = true
  · rw [if_pos hin, replaceToken_of_occurs hin, asked_bind]
    show (setting.resolve path token).asked world ++ _ = (setting.resolve path token).asked world
    rcases (setting.resolve path token).run world with ⟨failure | value, after⟩
    · exact List.append_nil _
    · exact List.append_nil _
  · rw [if_neg hin, replaceToken_of_gone hin]
    rfl

/-- Replacing tokens asks what its calls ask. -/
theorem asked_replaceTokens (tokens : List (List Char)) (current : Filled) (world : World σ) :
    (setting.replaceTokens path found tokens current).asked world =
      (setting.callsOfTokens path found tokens current world).flatMap (setting.askedFor path) := by
  induction tokens generalizing current world with
  | nil => rfl
  | cons token rest ih =>
    have hown : (if Text.occursIn token current.text then [({ token, world } : Call σ)] else []).flatMap
        (setting.askedFor path) = (setting.replaceToken path found current token).asked world := by
      rw [asked_replaceToken]
      by_cases hin : Text.occursIn token current.text = true
      · rw [if_pos hin, if_pos hin, List.flatMap_singleton]
      · rw [if_neg hin, if_neg hin, List.flatMap_nil]
    rw [replaceTokens, asked_bind, callsOfTokens]
    rcases (setting.replaceToken path found current token).run world with ⟨failure | next, after⟩
    · rw [hown, List.append_nil]
    · dsimp only
      rw [List.flatMap_append, hown, ih]

/-- A pass asks what its calls ask. -/
theorem asked_pass (text : List Char) (world : World σ) : (setting.pass path found text).asked world =
    (setting.callsOfPass path found text world).flatMap (setting.askedFor path) := by
  rw [pass, asked_bind, asked_checkTokens, List.nil_append, callsOfPass]
  rcases (setting.checkTokens path found).run world with ⟨failure | _, after⟩
  · rfl
  · exact asked_replaceTokens _ _ _

/-- The end of substitution asks nothing. -/
theorem asked_conclude (last : Filled × Bool) : (setting.conclude last).asked world = [] := by
  unfold conclude
  split
  · rfl
  · show (if setting.strict then _ else _ : Script σ Failure Filled).asked _ = []
    split <;> rfl

theorem asked_passes (limit : Nat) (current : Filled) (world : World σ) :
    (setting.passes path limit current >>= setting.conclude).asked world =
      (setting.callsOfPasses path limit current world).flatten.flatMap (setting.askedFor path) := by
  induction limit generalizing current world with
  | zero => exact asked_conclude (current, false)
  | succ limit ih =>
    by_cases ht : Token.tokens current.text = []
    · rw [passes_of_no_tokens path _ ht, callsOfPasses_of_no_tokens _ ht]
      rfl
    · rw [passes_succ path limit ht, callsOfPasses_succ limit ht, asked_bind, asked_pass]
      rcases (setting.pass path (Token.tokens current.text) current.text).run world with ⟨failure | next, after⟩
      · rw [List.append_nil, List.flatten_singleton]
      · dsimp only
        by_cases hsame : next.text = current.text
        · rw [if_pos hsame, if_pos hsame, List.flatten_singleton]
          exact List.append_nil _
        · rw [if_neg hsame, if_neg hsame, ih, List.flatten_cons, List.flatMap_append]

/-- **Substitution asks what its calls ask**, in order, and nothing else. -/
theorem asked_substitute (path : Option Path) (text : List Char) (world : World σ) :
    (setting.substitute path text).asked world =
      (setting.calls path text world).flatten.flatMap (setting.askedFor path) := by
  rw [substitute_eq_conclude]
  exact asked_passes _ _ _

end Setting

end Template
