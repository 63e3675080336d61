import Template.Proofs.Steady

/-!
# `Template.Proofs.Passes` — passes over a text, and their values

A token of a pass is resolved and replaced if it is still there (`replaceToken_of_occurs`), and passed over if it is
gone (`replaceToken_of_gone`).

Against steady plugins a pass, and the loop of passes, is a computation with optional values: each script of
`Template.Substitution` gets one equation for its value, and later proofs rewrite with these and never run a
script. None of the values depends on the place of the text (`value?_substitute_place`).
-/

namespace Template.Setting

open Script

variable {σ : Type} {setting : Setting σ}

/-! ## One token of a pass -/

section

variable {path : Option Path} {found : List (List Char)}

/-- What is left when a token of a pass is replaced by the text of its value. -/
def replaced (found : List (List Char)) (current : Filled) (token : List Char) (value : Json) : Filled where
  text := Text.replaceAll token value.asText current.text
  single := if found.length == 1 && token == Text.trim current.text then some value else current.single

/-- A token that is there is resolved, and then replaced. -/
theorem replaceToken_of_occurs {current : Filled} {token : List Char}
    (h : Text.occursIn token current.text = true) :
    setting.replaceToken path found current token =
      setting.resolve path token >>= fun value => .done (replaced found current token value) := by
  unfold replaceToken
  rw [if_pos h]
  rfl

/-- A token that is gone is passed over. -/
theorem replaceToken_of_gone {current : Filled} {token : List Char}
    (h : ¬ Text.occursIn token current.text = true) :
    setting.replaceToken path found current token = .done current := by
  unfold replaceToken
  rw [if_neg h]
  rfl

/-- Where several tokens were found, a value that was kept before stays. -/
theorem single_of_replaceTokens (hl : found.length ≠ 1) {tokens : List (List Char)} {current next : Filled}
    {world after : World σ} (h : (setting.replaceTokens path found tokens current).run world = (.ok next, after)) :
    next.single = current.single := by
  induction tokens generalizing current world with
  | nil =>
    cases h
    rfl
  | cons token rest ih =>
    rw [replaceTokens, run_bind] at h
    by_cases hin : Text.occursIn token current.text = true
    · rw [replaceToken_of_occurs hin, run_bind] at h
      rcases hresolve : (setting.resolve path token).run world with ⟨failure | value, middle⟩
      · rw [hresolve] at h
        cases h
      · rw [hresolve] at h
        rw [ih h]
        simp [replaced, hl]
    · rw [replaceToken_of_gone hin] at h
      exact ih h

end

/-! ## One equation for each script -/

theorem value?_checkTokens_cons (path : Option Path) (token : List Char) (rest : List (List Char))
    (world : World σ) :
    (setting.checkTokens path (token :: rest)).value? world =
      ((setting.checkToken path token).value? world).bind fun _ =>
        (setting.checkTokens path rest).value? world :=
  value?_bind _ (fun _ => checkTokens_steady path rest) world

theorem value?_checkToken (path : Option Path) (token : List Char) (world : World σ) :
    (setting.checkToken path token).value? world = (setting.checkDepth token).toOption := by
  unfold checkToken
  cases setting.checkDepth token with
  | error cause => rfl
  | ok _ => rfl

theorem value?_replaceToken (path : Option Path) (found : List (List Char)) (current : Filled)
    (token : List Char) (world : World σ) :
    (setting.replaceToken path found current token).value? world =
      if Text.occursIn token current.text then
        (setting.answer? world token).map fun value =>
          { text := Text.replaceAll token value.asText current.text
            single :=
              if found.length == 1 && token == Text.trim current.text then some value
              else current.single }
      else some current := by
  unfold replaceToken
  split
  · refine (value?_bind _ (fun _ => steady_done _) world).trans ?_
    rw [value?_resolve, Option.map_eq_bind]
    rfl
  · rfl

theorem value?_replaceTokens_cons (h : setting.registry.Steady) (path : Option Path)
    (found : List (List Char)) (current : Filled) (token : List Char) (rest : List (List Char))
    (world : World σ) :
    (setting.replaceTokens path found (token :: rest) current).value? world =
      ((setting.replaceToken path found current token).value? world).bind fun next =>
        (setting.replaceTokens path found rest next).value? world :=
  value?_bind _ (replaceTokens_steady h path found rest) world

theorem value?_pass (h : setting.registry.Steady) (path : Option Path) (found : List (List Char))
    (text : List Char) (world : World σ) :
    (setting.pass path found text).value? world =
      ((setting.checkTokens path found).value? world).bind fun _ =>
        (setting.replaceTokens path found (Token.innermost found) { text }).value? world :=
  value?_bind _ (fun _ => replaceTokens_steady h path found _ _) world

theorem value?_passes_of_no_tokens (path : Option Path) (limit : Nat) {current : Filled}
    (ht : Token.tokens current.text = []) (world : World σ) :
    (setting.passes path limit current).value? world = some (current, limit != 0) := by
  cases limit with
  | zero => rfl
  | succ limit =>
    unfold passes
    rw [ht]
    rfl

theorem value?_passes_succ (h : setting.registry.Steady) (path : Option Path) (limit : Nat)
    {current : Filled} (ht : Token.tokens current.text ≠ []) (world : World σ) :
    (setting.passes path (limit + 1) current).value? world =
      ((setting.pass path (Token.tokens current.text) current.text).value? world).bind fun next =>
        if next.text = current.text then some (next, true)
        else (setting.passes path limit next).value? world := by
  -- what follows a pass is steady, so its value may be read off in the world before the pass
  have hsteady : ∀ next : Filled,
      (if next.text = current.text then return (next, true)
        else setting.passes path limit next : Script σ Failure (Filled × Bool)).Steady := by
    intro next
    split
    · exact steady_done _
    · exact passes_steady h path limit next
  rw [passes]
  split
  · rename_i hnil
    exact absurd hnil ht
  · rw [value?_bind _ hsteady]
    refine congrArg _ (funext fun next => ?_)
    split <;> rfl

theorem value?_substitute (path : Option Path) (text : List Char) (world : World σ) :
    (setting.substitute path text).value? world =
      ((setting.passes path setting.maxPasses.toNat { text }).value? world).bind fun last =>
        if last.2 || (Token.tokens last.1.text).isEmpty then some last.1
        else if setting.strict then none else some last.1 := by
  have hsteady : ∀ last : Filled × Bool,
      (if last.2 || (Token.tokens last.1.text).isEmpty then return last.1
        else
          .note s!"Substitution stopped after {setting.maxPasses.toNat} passes: {String.ofList last.1.text}" <|
            if setting.strict then .fail (.unsettled (String.ofList last.1.text) setting.maxPasses)
            else .done last.1 : Script σ Failure Filled).Steady := by
    intro last
    split
    · exact steady_done _
    · refine steady_note _ ?_
      split
      · exact steady_fail _
      · exact steady_done _
  show (setting.passes path setting.maxPasses.toNat { text } >>= fun last => _).value? world = _
  rw [value?_bind _ hsteady]
  refine congrArg _ (funext fun last => ?_)
  split
  · rfl
  · show (if setting.strict then _ else _ : Script σ Failure Filled).value? _ = _
    split <;> rfl

/-- If it is not a failure that substitution has not settled, its result is that of the passes. -/
theorem value?_substitute_of_lenient (hlenient : setting.strict = false) (path : Option Path)
    (text : List Char) (world : World σ) :
    (setting.substitute path text).value? world =
      ((setting.passes path setting.maxPasses.toNat { text }).value? world).map (·.1) := by
  rw [value?_substitute, hlenient, Option.map_eq_bind]
  refine congrArg _ (funext fun last => ?_)
  rw [if_neg Bool.false_ne_true, ite_self]
  rfl

/-- A text that is left without tokens has been replaced in as many passes as there were. -/
theorem value?_substitute_of_passes {path : Option Path} {text : List Char} {world : World σ}
    {last : Filled} {settled : Bool}
    (hp : (setting.passes path setting.maxPasses.toNat { text }).value? world = some (last, settled))
    (ht : Token.tokens last.text = []) :
    (setting.substitute path text).value? world = some last := by
  rw [value?_substitute, hp, Option.bind_some, ht, List.isEmpty_nil, Bool.or_true, if_pos rfl]

theorem value?_fillText {text : List Char}
    (ht : Token.tokens text ≠ []) (world : World σ) :
    (setting.fillText text).value? world =
      ((setting.substitute none text).value? world).map (·.text) := by
  unfold fillText
  split
  · rename_i hnil
    exact absurd hnil ht
  · refine (value?_bind _ (fun _ => steady_done _) world).trans ?_
    rw [Option.map_eq_bind]
    rfl

/-- What becomes of a string that was not one token to begin with, once its tokens are replaced. -/
def outcome? (setting : Setting σ) (world : World σ) (filled : Filled) : Option Json :=
  match filled.single with
  | some value => some value
  | none =>
    if Token.isSingle filled.text then setting.answer? world filled.text
    else some (.string (String.ofList filled.text))

theorem value?_fillString (h : setting.registry.Steady) (path : Path) (s : String) (world : World σ) :
    (setting.fillString path s).value? world =
      if (Token.tokens s.toList).isEmpty then some (.string s)
      else if Token.isSingle s.toList then setting.answer? world s.toList
      else ((setting.substitute (some path) s.toList).value? world).bind fun filled =>
        if Token.isToken s.toList then setting.outcome? world filled
        else some (.string (String.ofList filled.text)) := by
  unfold fillString
  dsimp only
  split
  · rfl
  · split
    · -- one token: it is asked for as a whole
      exact value?_resolve _ _ world
    · -- anything else goes through the passes first
      rw [value?_bind]
      · refine congrArg _ (funext fun filled => ?_)
        cases hlook : Token.isToken s.toList with
        | false => rfl
        | true =>
          unfold outcome?
          cases filled.single with
          | some value => rfl
          | none =>
            by_cases hsingle : Token.isSingle filled.text = true
            · simp [hsingle]
            · simp [hsingle]
      · intro filled
        split
        · exact steady_done _
        · split
          · exact steady_done _
          · split
            · exact resolve_steady h _ _
            · exact steady_done _

/-! ## Values do not depend on the place -/

theorem value?_checkTokens_place (path path' : Option Path) (tokens : List (List Char))
    (world : World σ) :
    (setting.checkTokens path tokens).value? world =
      (setting.checkTokens path' tokens).value? world := by
  induction tokens with
  | nil => rfl
  | cons token rest ih =>
    rw [value?_checkTokens_cons, value?_checkTokens_cons, value?_checkToken, value?_checkToken, ih]

theorem value?_replaceTokens_place (h : setting.registry.Steady) (path path' : Option Path)
    (found tokens : List (List Char)) (current : Filled) (world : World σ) :
    (setting.replaceTokens path found tokens current).value? world =
      (setting.replaceTokens path' found tokens current).value? world := by
  induction tokens generalizing current with
  | nil => rfl
  | cons token rest ih =>
    rw [value?_replaceTokens_cons h, value?_replaceTokens_cons h, value?_replaceToken,
      value?_replaceToken]
    exact congrArg _ (funext ih)

theorem value?_pass_place (h : setting.registry.Steady) (path path' : Option Path)
    (found : List (List Char)) (text : List Char) (world : World σ) :
    (setting.pass path found text).value? world = (setting.pass path' found text).value? world := by
  rw [value?_pass h, value?_pass h, value?_checkTokens_place path path',
    value?_replaceTokens_place h path path']

theorem value?_passes_place (h : setting.registry.Steady) (path path' : Option Path) (limit : Nat)
    (current : Filled) (world : World σ) :
    (setting.passes path limit current).value? world =
      (setting.passes path' limit current).value? world := by
  induction limit generalizing current with
  | zero => rfl
  | succ limit ih =>
    by_cases ht : Token.tokens current.text = []
    · rw [value?_passes_of_no_tokens path _ ht, value?_passes_of_no_tokens path' _ ht]
    · rw [value?_passes_succ h path limit ht, value?_passes_succ h path' limit ht,
        value?_pass_place h path path']
      refine congrArg _ (funext fun next => ?_)
      rw [ih next]

/-- **The value of a text with its tokens replaced does not depend on its place.** -/
theorem value?_substitute_place (h : setting.registry.Steady) (path path' : Option Path)
    (text : List Char) (world : World σ) :
    (setting.substitute path text).value? world = (setting.substitute path' text).value? world := by
  rw [value?_substitute, value?_substitute, value?_passes_place h path path']

end Template.Setting
