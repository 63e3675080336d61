import Template.Document

/-!
# `Template.Proofs.Steady` — plugins whose answers depend on the token and the context alone

A plugin may keep a state, and its answers may take a varying number of turns. It is **steady** if neither
shows in *what* it answers. Against steady plugins every script of a run has one result, whatever the world
it is run in and whatever others do while it pauses, so the result can be read off in any world and scripts
compose like optional values.

## Contents
- `Plugin.Steady`, `Registry.Steady` — the property for plugins.
- `Script.EndsWith`, `Script.Steady` — what a script comes to in all worlds, and that there is such a result.
- `Script.value?` — the value of a script that runs alone, and `value?_bind`: scripts compose.
- `Setting.answer?` — the value of one token, which is the same at every place (`value?_resolve`).
- One lemma for each script of a run: it is steady when the registry is.
-/

namespace Template

variable {σ ε ε' α β : Type}

/-- What the plugin answers depends on the token and the context alone. Its state may still change, and so
    may the number of turns that the answer takes. -/
def Plugin.Steady (plugin : Plugin σ) : Prop :=
  ∀ placeholder context state state',
    (plugin.resolve placeholder context state).1.answer =
      (plugin.resolve placeholder context state').1.answer

/-- All plugins of the registry are steady. -/
def Registry.Steady (registry : Registry σ) : Prop :=
  ∀ plugin ∈ registry.plugins, plugin.Steady

/-- A plugin without state is steady. -/
theorem Plugin.steady_pure (name : String) (answer : Placeholder → Context → Except Cause Json) :
    (Plugin.pure name answer : Plugin σ).Steady :=
  fun _ _ _ _ => rfl

/-- The plugin that answers with the first argument, as text. -/
def Plugin.echo : Plugin Unit :=
  .pure "echo" fun placeholder _ => .ok (.string (placeholder.args.headD ""))

/-- The setting in which only `Plugin.echo` is registered. -/
def Setting.echoing : Setting Unit where
  registry := { plugins := [.echo] }

theorem Setting.steady_echoing : Setting.echoing.registry.Steady := by
  intro plugin h
  rw [List.mem_singleton.mp h]
  exact Plugin.steady_pure _ _

namespace Script

/-- The script comes to a result, whatever happens to the world while it pauses, and whatever the state of
    a plugin is when it is asked. -/
inductive EndsWith : Script σ ε α → Except ε α → Prop where
  | done (value : α) : EndsWith (done value) (.ok value)
  | fail (error : ε) : EndsWith (fail error) (.error error)
  | note {next : Script σ ε α} {result : Except ε α} (message : String) (h : EndsWith next result) :
      EndsWith (note message next) result
  | ask {plugin : Plugin σ} {placeholder : Placeholder} {context : Context}
      {next : Reply → Script σ ε α} {result : Except ε α}
      (h : ∀ state, EndsWith (next (plugin.resolve placeholder context state).1) result) :
      EndsWith (ask plugin placeholder context next) result
  | pause {next : Script σ ε α} {result : Except ε α} (h : EndsWith next result) :
      EndsWith (pause next) result

/-- The script comes to the same result in every world. -/
def Steady (script : Script σ ε α) : Prop :=
  ∃ result, script.EndsWith result

/-- The value of a script that runs alone in a world, if it has one. -/
def value? (script : Script σ ε α) (world : World σ) : Option α :=
  (script.run world).1.toOption

/-! ## Steady scripts -/

/-- A script that runs alone comes to its result. -/
theorem EndsWith.run {script : Script σ ε α} {result : Except ε α} (h : script.EndsWith result)
    (world : World σ) : (script.run world).1 = result := by
  induction h generalizing world with
  | done value => rfl
  | fail error => rfl
  | note message _ ih => exact ih _
  | ask _ ih => exact ih world.state _
  | pause _ ih => exact ih _

/-- A script that got to a pause comes to the same result from there. -/
theorem EndsWith.advance {script : Script σ ε α} {result : Except ε α} (h : script.EndsWith result)
    (world : World σ) :
    (script.advance world).1 = .ended result ∨
      ∃ rest, (script.advance world).1 = .paused rest ∧ rest.EndsWith result := by
  induction h generalizing world with
  | done value => exact .inl rfl
  | fail error => exact .inl rfl
  | note message _ ih => exact ih _
  | ask _ ih => exact ih world.state _
  | pause h _ => exact .inr ⟨_, rfl, h⟩

/-- What a steady script gives when it runs alone is what it always comes to. -/
theorem Steady.endsWith {script : Script σ ε α} (h : script.Steady) (world : World σ) :
    script.EndsWith (script.run world).1 := by
  obtain ⟨result, h⟩ := h
  rwa [h.run world]

theorem Steady.run_eq {script : Script σ ε α} (h : script.Steady) (world world' : World σ) :
    (script.run world).1 = (script.run world').1 :=
  ((h.endsWith world').run world)

/-- Two scripts, one after the other, come to `outcome` if the second one does, or if the first one fails
    with that. -/
theorem EndsWith.bind_result {script : Script σ ε α} {f : α → Script σ ε β} {result : Except ε α}
    {outcome : Except ε β}
    (hf : match result with
      | .ok value => (f value).EndsWith outcome
      | .error error => .error error = outcome)
    (h : script.EndsWith result) : (script >>= f).EndsWith outcome := by
  induction h with
  | done value => exact hf
  | fail error => exact hf ▸ .fail error
  | note message _ ih => exact .note message (ih hf)
  | ask _ ih => exact .ask fun state => ih state hf
  | pause _ ih => exact .pause (ih hf)

theorem EndsWith.bind {script : Script σ ε α} {f : α → Script σ ε β} {value : α} {result : Except ε β}
    (h : script.EndsWith (.ok value)) (hf : (f value).EndsWith result) :
    (script >>= f).EndsWith result :=
  h.bind_result hf

theorem EndsWith.bind_error {script : Script σ ε α} {f : α → Script σ ε β} {error : ε}
    (h : script.EndsWith (.error error)) : (script >>= f).EndsWith (.error error) :=
  h.bind_result rfl

/-- A script whose errors are dealt with comes to `outcome` if dealing with its error does, or if that is
    its value. -/
theorem EndsWith.handle_result {script : Script σ ε α} {f : ε → Script σ ε' α} {result : Except ε α}
    {outcome : Except ε' α}
    (hf : match result with
      | .ok value => .ok value = outcome
      | .error error => (f error).EndsWith outcome)
    (h : script.EndsWith result) : (script.handle f).EndsWith outcome := by
  induction h with
  | done value => exact hf ▸ .done value
  | fail error => exact hf
  | note message _ ih => exact .note message (ih hf)
  | ask _ ih => exact .ask fun state => ih state hf
  | pause _ ih => exact .pause (ih hf)

theorem steady_done (value : α) : (done value : Script σ ε α).Steady := ⟨_, .done value⟩

theorem steady_fail (error : ε) : (fail error : Script σ ε α).Steady := ⟨_, .fail error⟩

theorem steady_note {next : Script σ ε α} (message : String) (h : next.Steady) :
    (note message next).Steady :=
  h.imp fun _ => .note message

theorem steady_ofExcept (result : Except ε α) : (ofExcept result : Script σ ε α).Steady := by
  cases result with
  | ok value => exact steady_done value
  | error error => exact steady_fail error

theorem steady_bind {script : Script σ ε α} {f : α → Script σ ε β} (h : script.Steady)
    (hf : ∀ value, (f value).Steady) : (script >>= f).Steady := by
  obtain ⟨error | value, h⟩ := h
  · exact ⟨_, h.bind_error⟩
  · obtain ⟨result, hresult⟩ := hf value
    exact ⟨result, h.bind hresult⟩

theorem steady_handle {script : Script σ ε α} {f : ε → Script σ ε' α} (h : script.Steady)
    (hf : ∀ error, (f error).Steady) : (script.handle f).Steady := by
  obtain ⟨error | value, h⟩ := h
  · obtain ⟨result, hresult⟩ := hf error
    exact ⟨result, h.handle_result hresult⟩
  · exact ⟨.ok value, h.handle_result rfl⟩

theorem EndsWith.after {script : Script σ ε α} {result : Except ε α} (h : script.EndsWith result)
    (turns : Nat) : (script.after turns).EndsWith result := by
  induction turns with
  | zero => exact h
  | succ turns ih => exact .pause ih

/-- The answer of a steady plugin, waited for. -/
theorem steady_question {plugin : Plugin σ} (h : plugin.Steady) (placeholder : Placeholder)
    (context : Context) : (question plugin placeholder context : Script σ ε _).Steady := by
  -- without a state to be in, no plugin can be asked
  by_cases hσ : Nonempty σ
  · obtain ⟨state⟩ := hσ
    refine ⟨.ok (plugin.resolve placeholder context state).1.answer, .ask fun state' => ?_⟩
    rw [h placeholder context state state']
    exact EndsWith.after (.done _) _
  · exact ⟨.ok (.ok (.value .null)), .ask fun state => absurd ⟨state⟩ hσ⟩

/-! ## Values -/

@[simp] theorem value?_pure (value : α) (world : World σ) :
    (pure value : Script σ ε α).value? world = some value := rfl

@[simp] theorem value?_ofExcept (result : Except ε α) (world : World σ) :
    (ofExcept result : Script σ ε α).value? world = result.toOption := by
  cases result <;> rfl

theorem toOption_eq_some_iff {result : Except ε α} {value : α} :
    result.toOption = some value ↔ result = .ok value := by
  rcases result with error | other
  · simp [Except.toOption]
  · simp [Except.toOption]

theorem value?_eq_some_iff {script : Script σ ε α} {world : World σ} {value : α} :
    script.value? world = some value ↔ (script.run world).1 = .ok value :=
  toOption_eq_some_iff

/-- The value of a steady script does not depend on the world. -/
theorem Steady.value?_eq {script : Script σ ε α} (h : script.Steady) (world world' : World σ) :
    script.value? world = script.value? world' := by
  unfold value?
  rw [h.run_eq world world']

/-- **Scripts compose like optional values**, if the second one is steady: it finds the world changed. -/
theorem value?_bind (script : Script σ ε α) {f : α → Script σ ε β} (hf : ∀ value, (f value).Steady)
    (world : World σ) :
    (script >>= f).value? world = (script.value? world).bind fun value => (f value).value? world := by
  unfold value?
  rw [run_bind]
  rcases script.run world with ⟨_ | value, after⟩
  · rfl
  · -- the first script may have changed the world, which does not show in the second one's value
    show ((f value).run after).1.toOption = ((f value).run world).1.toOption
    rw [(hf value).run_eq after world]

/-- Dealing with an error by another failure leaves the value. -/
theorem value?_handle_of_fails (script : Script σ ε α) {f : ε → Script σ ε' α}
    (hf : ∀ error world, (f error).value? world = none) (world : World σ) :
    (script.handle f).value? world = script.value? world := by
  unfold value?
  rw [run_handle]
  rcases script.run world with ⟨error | value, after⟩
  · exact hf error after
  · rfl

end Script

/-! ## The scripts of a run -/

namespace Setting

open Script

variable {setting : Setting σ}

/-- The value of one token in a world, if it has one. -/
def answer? (setting : Setting σ) (world : World σ) (token : List Char) : Option Json :=
  (setting.evaluate token).value? world

theorem mem_plugins_of_findPlugin {registry : Registry σ} {name : String} {plugin : Plugin σ}
    (h : registry.findPlugin name = .ok plugin) : plugin ∈ registry.plugins := by
  unfold Registry.findPlugin Registry.plugin? at h
  cases hfound : registry.plugins.find? (·.name == name) with
  | none => rw [hfound] at h; cases h
  | some other =>
    rw [hfound] at h
    cases h
    exact List.mem_of_find?_eq_some hfound

theorem mem_transforms_of_findTransform {registry : Registry σ} {name : String} {transform : Transform}
    (h : registry.findTransform name = .ok transform) : transform ∈ registry.transforms := by
  unfold Registry.findTransform Registry.transform? at h
  cases hfound : registry.transforms.find? (·.name == name) with
  | none => rw [hfound] at h; cases h
  | some other =>
    rw [hfound] at h
    cases h
    exact List.mem_of_find?_eq_some hfound

/-- What is done before a plugin is asked, step by step. -/
theorem prepare_eq (token : List Char) :
    setting.prepare token =
      match setting.checkDepth token, Placeholder.parse token with
      | .error cause, _ => .error cause
      | .ok _, .error fault => .error (.malformed fault)
      | .ok _, .ok placeholder =>
        if setting.options.allows placeholder.module then
          (setting.registry.findPlugin placeholder.module).map fun plugin => (placeholder, some plugin)
        else .ok (placeholder, none) := by
  unfold prepare
  cases setting.checkDepth token with
  | error cause => rfl
  | ok _ =>
    cases Placeholder.parse token with
    | error fault => rfl
    | ok placeholder => rfl

/-- The plugin that is asked for a token is one of the registry. -/
theorem mem_plugins_of_prepare {token : List Char} {placeholder : Placeholder} {plugin : Plugin σ}
    (h : setting.prepare token = .ok (placeholder, some plugin)) :
    plugin ∈ setting.registry.plugins := by
  rw [prepare_eq] at h
  split at h
  · cases h
  · cases h
  · rename_i parsed _ _
    split at h
    · cases hf : setting.registry.findPlugin parsed.module with
      | error cause => rw [hf] at h; cases h
      | ok other =>
        rw [hf] at h
        cases h
        exact mem_plugins_of_findPlugin hf
    · cases h

theorem evaluate_steady (h : setting.registry.Steady) (token : List Char) :
    (setting.evaluate token).Steady := by
  unfold evaluate
  split
  · exact steady_fail _
  · exact steady_done _
  · rename_i placeholder plugin hp
    exact steady_bind (steady_question (h plugin (mem_plugins_of_prepare hp)) _ _)
      fun _ => steady_ofExcept _

theorem failAt_steady {α : Type} (token : List Char) (path : Option Path) (cause : Cause) :
    (failAt token path cause : Script σ Failure α).Steady :=
  steady_note _ (steady_fail _)

theorem resolve_steady (h : setting.registry.Steady) (path : Option Path) (token : List Char) :
    (setting.resolve path token).Steady :=
  steady_handle (evaluate_steady h token) fun cause => failAt_steady token path cause

theorem checkToken_steady (path : Option Path) (token : List Char) :
    (setting.checkToken path token).Steady := by
  unfold checkToken
  split
  · exact steady_done _
  · exact failAt_steady token path _

theorem checkTokens_steady (path : Option Path) (tokens : List (List Char)) :
    (setting.checkTokens path tokens).Steady := by
  induction tokens with
  | nil => exact steady_done _
  | cons token rest ih => exact steady_bind (checkToken_steady path token) fun _ => ih

theorem replaceToken_steady (h : setting.registry.Steady) (path : Option Path)
    (found : List (List Char)) (current : Filled) (token : List Char) :
    (setting.replaceToken path found current token).Steady := by
  unfold replaceToken
  split
  · exact steady_bind (resolve_steady h path token) fun _ => steady_done _
  · exact steady_done _

theorem replaceTokens_steady (h : setting.registry.Steady) (path : Option Path)
    (found tokens : List (List Char)) (current : Filled) :
    (setting.replaceTokens path found tokens current).Steady := by
  induction tokens generalizing current with
  | nil => exact steady_done _
  | cons token rest ih => exact steady_bind (replaceToken_steady h path found current token) ih

theorem pass_steady (h : setting.registry.Steady) (path : Option Path) (found : List (List Char))
    (text : List Char) : (setting.pass path found text).Steady :=
  steady_bind (checkTokens_steady path found) fun _ => replaceTokens_steady h path found _ _

theorem passes_steady (h : setting.registry.Steady) (path : Option Path) (limit : Nat)
    (current : Filled) : (setting.passes path limit current).Steady := by
  induction limit generalizing current with
  | zero => exact steady_done _
  | succ limit ih =>
    unfold passes
    split
    · exact steady_done _
    · refine steady_bind (pass_steady h path _ _) fun next => ?_
      split
      · exact steady_done _
      · exact ih next

theorem substitute_steady (h : setting.registry.Steady) (path : Option Path) (text : List Char) :
    (setting.substitute path text).Steady := by
  refine steady_bind (passes_steady h path _ _) fun ⟨result, settled⟩ => ?_
  show Steady (if settled || (Token.tokens result.text).isEmpty then _ else _)
  split
  · exact steady_done _
  · refine steady_note _ ?_
    split
    · exact steady_fail _
    · exact steady_done _

theorem fillText_steady (h : setting.registry.Steady) (text : List Char) :
    (setting.fillText text).Steady := by
  unfold fillText
  split
  · exact steady_done _
  · exact steady_bind (substitute_steady h none text) fun _ => steady_done _

theorem fillString_steady (h : setting.registry.Steady) (path : Path) (s : String) :
    (setting.fillString path s).Steady := by
  unfold fillString
  dsimp only
  split
  · exact steady_done _
  · split
    · exact resolve_steady h _ _
    · refine steady_bind (substitute_steady h _ _) fun result => ?_
      split
      · exact steady_done _
      · split
        · exact steady_done _
        · split
          · exact resolve_steady h _ _
          · exact steady_done _

/-- The value of a token does not depend on its place. -/
@[simp] theorem value?_resolve (path : Option Path) (token : List Char) (world : World σ) :
    (setting.resolve path token).value? world = setting.answer? world token :=
  value?_handle_of_fails _ (fun _ _ => rfl) world

end Setting

end Template
