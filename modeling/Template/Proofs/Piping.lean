import Template.Proofs.Questions
import Template.Proofs.Rendering
import Template.Proofs.Spacing
import Template.Proofs.Steady
import Template.Transform

/-!
# `Template.Proofs.Piping` — transforms put behind a token

A transform may be put behind a token, and another one behind that. The longer token has the parts of the shorter one
and more transforms at the end (`parse_piped_iff`), and one is well-formed if the other is. So both put the same
question to the same plugin. What comes of the longer token is what comes of the shorter one, put through the added
transforms from the left: each is looked up by its name when its turn comes, and the first that is not there, or
rejects its value, is the failure.

That a body ends with a bar has to be ruled out, since nothing behind a bar is no transform, but a transform behind
two bars comes after one without a name.

## Contents
- `WrittenTransform`, `Token.piped` — transforms as they are written, and a body with transforms behind it.
- `Placeholder.Tells.piped`, `Placeholder.parse_piped_iff` — the parts of the longer token.
- `Registry.through`, `applyTransforms_eq_foldlM` — transforms in a row are a fold.
- `Setting.run_resolve`, `Setting.asked_resolve` — tokens for which a plugin is asked.
- `Setting.resolve_piped`.
-/

namespace Template

variable {σ : Type}

/-! ## Transforms as they are written -/

/-- A transform as it is written behind a bar: its name and its parameters, with or without blanks around them. -/
structure WrittenTransform where
  name : List Char
  params : List (List Char)

namespace WrittenTransform

/-- The name and the parameters in one row. -/
def parts (transform : WrittenTransform) : List (List Char) :=
  transform.name :: transform.params

/-- What stands behind the bar. -/
def text (transform : WrittenTransform) : List Char :=
  Text.joinWith [':'] transform.parts

/-- The transform that is meant. -/
def call (transform : WrittenTransform) : TransformCall where
  name := String.ofList (Text.trim transform.name)
  params := transform.params.map fun param => String.ofList (Text.trim param)

/-- There is a name, and nothing in the parts is taken for something else. -/
structure Valid (transform : WrittenTransform) : Prop where
  named : Text.trim transform.name ≠ []
  plain : ∀ part ∈ transform.parts, ∀ c ∈ part, Plain c
  noColon : ∀ part ∈ transform.parts, ':' ∉ part

-- by going through the parts, and not through all characters that there are
instance (transform : WrittenTransform) : Decidable transform.Valid :=
  decidable_of_iff
    (Text.trim transform.name ≠ [] ∧ (∀ part ∈ transform.parts, part.all (fun c => decide (Plain c)) = true) ∧
      ∀ part ∈ transform.parts, ':' ∉ part)
    ⟨fun h => ⟨h.1, by simpa using h.2.1, h.2.2⟩, fun h => ⟨h.1, by simpa using h.2, h.3⟩⟩

variable {transform : WrittenTransform}

/-- **What is written is read**, without the blanks. -/
theorem parse?_text (h : transform.Valid) : TransformCall.parse? transform.text = some transform.call := by
  have hname : (Text.trim transform.name).isEmpty = false := List.isEmpty_eq_false_iff.mpr h.named
  have hsplit : Text.splitOn ':' transform.text = transform.name :: transform.params :=
    Token.splitOn_joinWith (List.cons_ne_nil _ _) h.noColon
  rw [TransformCall.parse?, hsplit, List.map_cons]
  dsimp only
  rw [if_neg (by rw [hname]; exact Bool.false_ne_true), List.map_map]
  rfl

theorem plain_text (h : transform.Valid) : ∀ c ∈ transform.text, Plain c :=
  Token.forall_mem_joinWith (by simp [Plain]) h.plain

theorem text_ne_nil (h : transform.Valid) : transform.text ≠ [] := by
  intro hnil
  have hread := parse?_text h
  rw [hnil] at hread
  cases hread

/-- There is no bar in it, and so none at its end. -/
theorem getLast?_text (h : transform.Valid) : transform.text.getLast? ≠ some '|' := by
  intro hlast
  exact (plain_text h '|' (List.mem_of_getLast? hlast)).2.2.1 rfl

end WrittenTransform

namespace Token

/-- A body with transforms put behind it. -/
def piped (body : List Char) (chain : List WrittenTransform) : List Char :=
  body ++ chain.flatMap fun transform => '|' :: transform.text

theorem piped_cons (body : List Char) (transform : WrittenTransform) (chain : List WrittenTransform) :
    piped body (transform :: chain) = piped (body ++ '|' :: transform.text) chain := by
  rw [piped, piped, List.flatMap_cons, List.append_assoc]

/-- Behind a last piece that is not empty, another one is one more segment. -/
theorem segmentsOf_concat {escapes : Bool} {pieces : List (List Char)} (h : pieces.getLast? ≠ some [])
    {piece : List Char} (hp : piece ≠ []) :
    segmentsOf escapes (pieces ++ [piece]) = segmentsOf escapes pieces ++ [segmentOf escapes piece] := by
  fun_induction segmentsOf escapes pieces with
  | case1 =>
    have hsome : ¬ piece.isEmpty = true := by rwa [List.isEmpty_iff]
    rw [List.nil_append, segmentsOf, if_neg hsome]
    rfl
  | case2 last hnone =>
    rw [List.isEmpty_iff.mp hnone] at h
    exact absurd rfl h
  | case3 last hsome =>
    have hsome' : ¬ piece.isEmpty = true := by rwa [List.isEmpty_iff]
    rw [List.singleton_append, segmentsOf, segmentsOf, if_neg hsome']
    rfl
  | case4 first next pieces ih =>
    rw [List.getLast?_cons_cons] at h
    rw [List.cons_append, List.cons_append, segmentsOf, ← List.cons_append, ih h, List.cons_append]

/-- A text that does not end with a bar has no empty piece behind its last one. -/
theorem getLast?_behind {body main : List Char} {behind : List (List Char)} (hend : body.getLast? ≠ some '|')
    (hpieces : pieces '|' false body = main :: behind) : behind.getLast? ≠ some [] := by
  intro hlast
  obtain ⟨front, rfl⟩ := List.getLast?_eq_some_iff.mp hlast
  have htext : Text.joinWith ['|'] (main :: front ++ [[]]) = body := by
    rw [List.cons_append, ← hpieces, pieces, joinWith_piecesFrom]
  rw [joinWith_concat _ (List.cons_ne_nil _ _), List.append_nil] at htext
  rw [← htext, List.getLast?_concat] at hend
  exact hend rfl

/-- Behind a bar, a transform is a piece of its own. -/
theorem pieces_piped {body : List Char} (hb : Braceless body) {transform : WrittenTransform} (h : transform.Valid) :
    pieces '|' false (body ++ '|' :: transform.text) = pieces '|' false body ++ [transform.text] := by
  have hplain := WrittenTransform.plain_text h
  have hpiece : pieces '|' false transform.text = [transform.text] :=
    piecesFrom_stretch (braceless_of_plain hplain) (fun hbar => (hplain '|' hbar).2.2.1 rfl) (by simp) 0
  rw [pieces_append_separator maySeparate_bar (leftOpenFrom_braceless hb 0) (by simp), hpiece]

end Token

open Token

namespace Placeholder

/-! ## The parts of the longer token -/

/-- The parts with another token and with more transforms at the end. -/
def extend (p : Placeholder) (token : String) (calls : List TransformCall) : Placeholder :=
  { p with token, transforms := p.transforms ++ calls }

/-- A text that may stand between the braces of a token, and behind which a transform may be put. -/
structure Body (body : List Char) : Prop where
  braceless : Braceless body
  oneLine : '\n' ∉ body
  noBar : body.getLast? ≠ some '|'

/-- With a transform behind it, it is such a text again. -/
theorem Body.append {body : List Char} (h : Body body) {transform : WrittenTransform} (ht : transform.Valid) :
    Body (body ++ '|' :: transform.text) where
  braceless := by
    have hplain : ∀ c ∈ transform.text, Plain c := WrittenTransform.plain_text ht
    exact braceless_append.mpr ⟨h.braceless, braceless_cons.mpr ⟨by decide, braceless_of_plain hplain⟩⟩
  oneLine := by
    rw [List.mem_append, List.mem_cons, not_or, not_or]
    exact ⟨h.oneLine, by decide, fun hline => (WrittenTransform.plain_text ht '\n' hline).2.2.2 rfl⟩
  noBar := by
    rw [← List.singleton_append, ← List.append_assoc, List.getLast?_append]
    cases hlast : transform.text.getLast? with
    | none => exact absurd (List.getLast?_eq_none_iff.mp hlast) (WrittenTransform.text_ne_nil ht)
    | some c =>
      intro hbar
      exact WrittenTransform.getLast?_text ht (hlast.trans hbar)

variable {p : Placeholder} {body : List Char} {chain : List WrittenTransform}

/-- **A transform behind a bar comes last**, and all else is told by what stands in front of the bar. -/
theorem tells_append_iff (h : Body body) {transform : WrittenTransform} (ht : transform.Valid) :
    p.Tells (body ++ '|' :: transform.text) ↔
      ∃ q : Placeholder, q.Tells body ∧ p = q.extend p.token [transform.call] := by
  obtain ⟨main, behind, hpieces⟩ := exists_first_piece '|' false 0 body
  have hread : (segmentsOf false (behind ++ [transform.text])).map TransformCall.parse? =
      (segmentsOf false behind).map TransformCall.parse? ++ [some transform.call] := by
    rw [segmentsOf_concat (getLast?_behind h.noBar hpieces) (WrittenTransform.text_ne_nil ht), List.map_append,
      List.map_singleton]
    show _ ++ [TransformCall.parse? (Text.trim transform.text)] = _
    rw [TransformCall.parse?_trim, WrittenTransform.parse?_text ht]
  constructor
  · intro htells
    have hsaid : p.SaidBy (pieces '|' false (body ++ '|' :: transform.text)) := htells.saidBy
    rw [pieces_piped h.braceless ht, pieces, hpieces, List.cons_append] at hsaid
    have htransforms := hsaid.transforms
    rw [hread] at htransforms
    obtain ⟨calls, last, hcalls, hfront, hlast⟩ := List.map_eq_append_iff.mp htransforms.symm
    obtain ⟨call, rfl, hcall⟩ := List.map_eq_singleton_iff.mp hlast
    refine ⟨{ p with transforms := calls }, ⟨h.oneLine, ?_⟩, ?_⟩
    · rw [pieces, hpieces]
      exact ⟨hsaid.segments, hsaid.module_ne, hsaid.action_ne, hfront.symm⟩
    · rw [extend, ← Option.some.inj hcall, ← hcalls]
  · rintro ⟨q, htells, hp⟩
    have hsaid : q.SaidBy (pieces '|' false body) := htells.saidBy
    rw [pieces, hpieces] at hsaid
    rw [hp]
    refine ⟨(h.append ht).oneLine, ?_⟩
    rw [pieces_piped h.braceless ht, pieces, hpieces, List.cons_append]
    refine ⟨hsaid.segments, hsaid.module_ne, hsaid.action_ne, ?_⟩
    rw [hread, hsaid.transforms, extend, List.map_append]
    rfl

/-- The same for a row of transforms, one after the other. -/
theorem tells_piped_iff (h : Body body) (hc : ∀ transform ∈ chain, transform.Valid) :
    p.Tells (piped body chain) ↔
      ∃ q : Placeholder, q.Tells body ∧ p = q.extend p.token (chain.map WrittenTransform.call) := by
  induction chain generalizing body p with
  | nil =>
    rw [piped, List.flatMap_nil, List.append_nil]
    constructor
    · intro htells
      exact ⟨p, htells, by rw [extend, List.map_nil, List.append_nil]⟩
    · rintro ⟨q, htells, hp⟩
      rw [hp, extend, List.map_nil, List.append_nil]
      exact htells.of_token p.token
  | cons transform chain ih =>
    obtain ⟨ht, hrest⟩ := List.forall_mem_cons.mp hc
    rw [piped_cons, ih (h.append ht) hrest]
    constructor
    · rintro ⟨middle, hmiddle, hp⟩
      obtain ⟨q, htells, hq⟩ := (tells_append_iff h ht).mp hmiddle
      refine ⟨q, htells, ?_⟩
      rw [hp, hq]
      simp [extend]
    · rintro ⟨q, htells, hp⟩
      refine ⟨q.extend q.token [transform.call], (tells_append_iff h ht).mpr ⟨q, htells, rfl⟩, ?_⟩
      rw [hp]
      simp [extend]

/-- **The parts of the longer token are those of the shorter one**, with the transforms that were put behind it. -/
theorem parse_piped_iff (h : Body body) (hc : ∀ transform ∈ chain, transform.Valid) :
    Placeholder.parse (bracket (piped body chain)) = .ok p ↔
      ∃ q, Placeholder.parse (bracket body) = .ok q ∧
        p = q.extend (String.ofList (bracket (piped body chain))) (chain.map WrittenTransform.call) := by
  rw [parse_bracket_iff (trim_bracket _), tells_piped_iff h hc]
  constructor
  · rintro ⟨htoken, q, htells, hp⟩
    refine ⟨{ q with token := String.ofList (bracket body) }, ?_, ?_⟩
    · exact (parse_bracket_iff (trim_bracket _)).mpr ⟨rfl, htells.of_token _⟩
    · rw [hp, htoken]
      rfl
  · rintro ⟨q, hparse, rfl⟩
    exact ⟨rfl, q, ((parse_bracket_iff (trim_bracket _)).mp hparse).2, rfl⟩

end Placeholder

/-! ## Transforms in a row -/

/-- A value put through one transform, which is looked up by its name. -/
def Registry.through (registry : Registry σ) (value : Json) (call : TransformCall) : Except Cause Json := do
  let transform ← registry.findTransform call.name
  (← transform.apply value call.params).toValue call.name

theorem Setting.applyTransforms_eq_foldlM (registry : Registry σ) (value : Json) (calls : List TransformCall) :
    Setting.applyTransforms registry value calls = calls.foldlM registry.through value := by
  induction calls generalizing value with
  | nil => rfl
  | cons call calls ih =>
    rw [applyTransforms, List.foldlM_cons, Registry.through]
    cases registry.findTransform call.name with
    | error cause => rfl
    | ok transform =>
      show (transform.apply value call.params >>= _) = (transform.apply value call.params >>= _) >>= _
      cases transform.apply value call.params with
      | error cause => rfl
      | ok outcome =>
        show (outcome.toValue call.name >>= _) = outcome.toValue call.name >>= _
        cases outcome.toValue call.name with
        | error cause => rfl
        | ok next => exact ih next

/-! ## Tokens that a plugin is asked for -/

namespace Script

variable {ε ε' α : Type}

theorem run_ofExcept (result : Except ε α) (world : World σ) : (ofExcept result).run world = (result, world) := by
  cases result <;> rfl

theorem asked_after (turns : Nat) (script : Script σ ε α) (world : World σ) :
    (script.after turns).asked world = script.asked world := by
  induction turns with
  | zero => rfl
  | succ turns ih => exact ih

/-- A script in which an error is dealt with asks what it asks anyway, and then what it takes to deal with it. -/
theorem asked_handle (script : Script σ ε α) (f : ε → Script σ ε' α) (world : World σ) :
    (script.handle f).asked world =
      script.asked world ++
        match script.run world with
        | (.ok _, _) => []
        | (.error error, world) => (f error).asked world := by
  induction script generalizing world with
  | done value => rfl
  | fail error => rfl
  | note message next ih => exact ih _
  | ask plugin placeholder context next ih =>
    simp only [handle, asked, run, List.cons_append]
    rw [ih]
  | pause next ih => exact ih _

end Script

/-- The second question is the first one, put for another token: the same plugin is asked in the same context, with
the same module, action and arguments. -/
structure Question.Again (first second : Question σ) : Prop where
  plugin : second.plugin = first.plugin
  module : second.placeholder.module = first.placeholder.module
  action : second.placeholder.action = first.placeholder.action
  args : second.placeholder.args = first.placeholder.args
  context : second.context = first.context

/-- What the plugin replies to a question in a state, and the state after it. -/
def Question.reply (question : Question σ) (state : σ) : Reply × σ :=
  question.plugin.resolve question.placeholder question.context state

namespace Setting

open Script

variable {setting : Setting σ} {path : Option Path} {token : List Char} {p : Placeholder} {plugin : Plugin σ}

/-- What a token with these parts comes to, for an answer of its plugin. -/
def valueFor (setting : Setting σ) (p : Placeholder) (answer : Except Cause Outcome) : Except Cause Json := do
  let value ← (← answer).toValue p.module
  applyTransforms setting.registry value p.transforms

/-- With more transforms at the end, it comes to the same, put through these. -/
theorem valueFor_extend (token : String) (calls : List TransformCall) (answer : Except Cause Outcome) :
    setting.valueFor (p.extend token calls) answer =
      setting.valueFor p answer >>= fun value => calls.foldlM setting.registry.through value := by
  cases answer with
  | error cause => rfl
  | ok outcome =>
    show (outcome.toValue p.module >>= _) = (outcome.toValue p.module >>= _) >>= _
    cases outcome.toValue p.module with
    | error cause => rfl
    | ok value =>
      show applyTransforms setting.registry value (p.transforms ++ calls) =
        applyTransforms setting.registry value p.transforms >>= _
      rw [applyTransforms_eq_foldlM, applyTransforms_eq_foldlM, List.foldlM_append]

theorem evaluate_of_prepare (h : setting.prepare token = .ok (p, some plugin)) :
    setting.evaluate token =
      question plugin p setting.options.context >>= fun answer => ofExcept (setting.valueFor p answer) := by
  unfold evaluate
  rw [h]
  rfl

/-- What is left to do for a token once its value is known, or why there is none. -/
def place (path : Option Path) (token : List Char) (result : Except Cause Json) : Script σ Failure Json :=
  (ofExcept result).handle (failAt token path)

theorem exists_failure_of_place (path : Option Path) (token : List Char) (cause : Cause) (world : World σ) :
    ∃ failure after, (place path token (.error cause)).run world = (.error failure, after) :=
  ⟨_, _, rfl⟩

/-- **A token that a plugin is asked for** comes to what its parts make of the reply, in the state that this leaves. -/
theorem run_resolve (h : setting.prepare token = .ok (p, some plugin)) (world : World σ) :
    (setting.resolve path token).run world =
      (place path token (setting.valueFor p (plugin.resolve p setting.options.context world.state).1.answer)).run
        { world with state := (plugin.resolve p setting.options.context world.state).2 } := by
  have hrun : (setting.evaluate token).run world =
      (setting.valueFor p (plugin.resolve p setting.options.context world.state).1.answer,
        { world with state := (plugin.resolve p setting.options.context world.state).2 }) := by
    rw [evaluate_of_prepare h, run_bind]
    unfold question
    simp only [run, run_after, run_ofExcept]
  rw [resolve, run_handle, hrun, place, run_handle, run_ofExcept]

/-- For a token that is refused before a plugin is asked, the failure is all there is. -/
theorem resolve_of_prepare {cause : Cause} (h : setting.prepare token = .error cause) :
    setting.resolve path token = place path token (.error cause) := by
  unfold resolve evaluate
  rw [h]
  rfl

/-- One question is asked for it. -/
theorem asked_resolve (h : setting.prepare token = .ok (p, some plugin)) (world : World σ) :
    (setting.resolve path token).asked world = [{ plugin, placeholder := p, context := setting.options.context }] := by
  have hasked : (setting.evaluate token).asked world =
      [{ plugin, placeholder := p, context := setting.options.context }] := by
    rw [evaluate_of_prepare h, asked_bind]
    unfold question
    simp only [asked, asked_after, run, run_after, List.singleton_append, List.cons.injEq, true_and]
    generalize setting.valueFor p _ = result
    cases result <;> rfl
  rw [resolve, asked_handle, hasked]
  rcases (setting.evaluate token).run world with ⟨cause | value, after⟩
  · rfl
  · rfl

/-! ## The longer token -/

/-- Without a limit of depth, and if every module may be asked, a token is refused only for its form, or because its
plugin is not there. -/
theorem prepare_of_open (hd : setting.options.maxDepth = none)
    (ha : ∀ module, setting.options.allows module = true) (token : List Char) :
    setting.prepare token =
      match Placeholder.parse token with
      | .error fault => .error (.malformed fault)
      | .ok p => (setting.registry.findPlugin p.module).map fun plugin => (p, some plugin) := by
  have hdepth : setting.checkDepth token = .ok () := by
    rw [checkDepth, hd]
  rw [prepare_eq, hdepth]
  cases Placeholder.parse token with
  | error fault => rfl
  | ok p =>
    dsimp only
    rw [if_pos (ha p.module)]

/-- **A token with transforms behind it**, side by side with the token itself. Either both are refused, or both put the
same question. -/
theorem prepare_piped (hd : setting.options.maxDepth = none) (ha : ∀ module, setting.options.allows module = true)
    {body : List Char} (hb : Placeholder.Body body) {chain : List WrittenTransform}
    (hc : ∀ transform ∈ chain, transform.Valid) :
    (∃ cause cause', setting.prepare (bracket body) = .error cause ∧
        setting.prepare (bracket (piped body chain)) = .error cause') ∨
      ∃ plugin p, setting.prepare (bracket body) = .ok (p, some plugin) ∧
        setting.prepare (bracket (piped body chain)) =
          .ok (p.extend (String.ofList (bracket (piped body chain))) (chain.map WrittenTransform.call), some plugin) := by
  rw [prepare_of_open hd ha, prepare_of_open hd ha]
  cases hparse : Placeholder.parse (bracket body) with
  | error fault =>
    left
    cases hlonger : Placeholder.parse (bracket (piped body chain)) with
    | error fault' => exact ⟨_, _, rfl, rfl⟩
    | ok p =>
      obtain ⟨q, hq, -⟩ := (Placeholder.parse_piped_iff hb hc).mp hlonger
      cases hparse.symm.trans hq
  | ok p =>
    have hlonger := (Placeholder.parse_piped_iff hb hc).mpr ⟨p, hparse, rfl⟩
    rw [hlonger]
    dsimp only
    have hmodule : (p.extend (String.ofList (bracket (piped body chain))) (chain.map WrittenTransform.call)).module =
      p.module := rfl
    rw [hmodule]
    cases setting.registry.findPlugin p.module with
    | error cause => exact .inl ⟨cause, cause, rfl, rfl⟩
    | ok plugin => exact .inr ⟨plugin, p, rfl, rfl⟩

/-- **Transforms put behind a token are applied to its value, from the left.** Let there be no limit of depth, and let
every module be allowed. If a token comes to a value, then the token with transforms behind it puts the same question
to the same plugin, and if it gets the same reply, it comes to what the transforms make of the value: each is looked up
by its name and applied with its parameters, and the first that cannot be is the cause of the failure. If the token
fails, the longer one fails as well. Only a plugin that looks at the token itself, or at its transforms, could reply
to the two questions in different ways. -/
theorem resolve_piped (hd : setting.options.maxDepth = none) (ha : ∀ module, setting.options.allows module = true)
    {body : List Char} (hb : Placeholder.Body body) {chain : List WrittenTransform}
    (hc : ∀ transform ∈ chain, transform.Valid) (path : Option Path) (world : World σ) :
    let token := bracket body
    let longer := bracket (piped body chain)
    (∀ value after, (setting.resolve path token).run world = (.ok value, after) →
      ∃ first second : Question σ, (setting.resolve path token).asked world = [first] ∧
        (setting.resolve path longer).asked world = [second] ∧ first.Again second ∧
        (second.reply world.state = first.reply world.state →
          (setting.resolve path longer).run world =
            (place path longer ((chain.map WrittenTransform.call).foldlM setting.registry.through value)).run after)) ∧
    ∀ failure after, (setting.resolve path token).run world = (.error failure, after) →
      (∀ first ∈ (setting.resolve path token).asked world, ∀ second ∈ (setting.resolve path longer).asked world,
        second.reply world.state = first.reply world.state) →
      ∃ failure' after', (setting.resolve path longer).run world = (.error failure', after') := by
  intro token longer
  rcases prepare_piped hd ha hb hc with ⟨cause, cause', hshort, hlong⟩ | ⟨plugin, p, hshort, hlong⟩
  · constructor
    · intro value after hrun
      rw [resolve_of_prepare hshort] at hrun
      cases hrun
    · intro _ _ _ _
      rw [resolve_of_prepare hlong]
      exact exists_failure_of_place path longer cause' world
  · rw [run_resolve hshort, run_resolve hlong, asked_resolve hshort, asked_resolve hlong, valueFor_extend]
    -- what the parts make of the reply, and the world after it
    generalize hreply : plugin.resolve p setting.options.context world.state = reply
    constructor
    · intro value after hrun
      refine ⟨_, _, rfl, rfl, ⟨rfl, rfl, rfl, rfl, rfl⟩, ?_⟩
      intro hsame
      have hsame' : plugin.resolve (p.extend (String.ofList longer) (chain.map WrittenTransform.call))
          setting.options.context world.state = plugin.resolve p setting.options.context world.state := hsame
      rw [hsame', hreply]
      cases hvalue : setting.valueFor p reply.1.answer with
      | error cause =>
        rw [hvalue] at hrun
        cases hrun
      | ok own =>
        rw [hvalue] at hrun
        cases hrun
        rfl
    · intro failure after hrun hsame
      have hsame' : plugin.resolve (p.extend (String.ofList longer) (chain.map WrittenTransform.call))
          setting.options.context world.state = plugin.resolve p setting.options.context world.state :=
        hsame _ List.mem_cons_self _ List.mem_cons_self
      rw [hsame', hreply]
      cases hvalue : setting.valueFor p reply.1.answer with
      | error cause => exact exists_failure_of_place path longer cause _
      | ok own =>
        rw [hvalue] at hrun
        cases hrun

/-- The setting in which `Plugin.echo` and the standard transforms are registered. -/
def piping : Setting Unit where
  registry := { plugins := [.echo], transforms := Transform.standard }

/-- Text that is made a number and then text again loses the zero in front. -/
theorem resolve_piped_echo :
    let body := "echo:say:042".toList
    let chain : List WrittenTransform := [⟨" toNumber ".toList, []⟩, ⟨"toString".toList, [" x".toList]⟩]
    piping.options.maxDepth = none ∧ (∀ module, piping.options.allows module = true) ∧ Placeholder.Body body ∧
    (∀ transform ∈ chain, transform.Valid) ∧
    (piping.resolve none (bracket body)).run { state := () } = (.ok (.string "042"), { state := () }) ∧
    (piping.resolve none "\x7b\x7becho:say:042| toNumber |toString: x\x7d\x7d".toList).run { state := () } =
      (.ok (.string "42"), { state := () }) := by
  intro body chain
  have hallows : ∀ module, piping.options.allows module = true := fun _ => rfl
  have hbody : Placeholder.Body body := ⟨by decide, by decide, by decide⟩
  have hvalid : ∀ transform ∈ chain, transform.Valid := by decide
  have hshort : (piping.resolve none (bracket body)).run { state := () } = (.ok (.string "042"), { state := () }) := by
    rfl
  obtain ⟨first, second, hfirst, -, hagain, hlonger⟩ :=
    (resolve_piped rfl hallows hbody hvalid none { state := () }).1 _ _ hshort
  have hplugin : first.plugin = .echo := by
    have hprepare : piping.prepare (bracket body) =
        .ok (⟨"\x7b\x7becho:say:042\x7d\x7d", "echo", "say", ["042"], []⟩, some .echo) := rfl
    rw [asked_resolve hprepare] at hfirst
    cases hfirst
    rfl
  have hreply : second.reply () = first.reply () := by
    rw [Question.reply, Question.reply, hagain.plugin, hplugin]
    show (({ answer := .ok (.value (.string (second.placeholder.args.headD ""))) } : Reply), ()) = _
    rw [hagain.args]
    rfl
  have htext : "\x7b\x7becho:say:042| toNumber |toString: x\x7d\x7d".toList = bracket (piped body chain) := by
    decide
  refine ⟨rfl, hallows, hbody, hvalid, hshort, ?_⟩
  rw [htext, hlonger hreply]
  rfl

/-- A plugin that looks at the token: it answers with the text of it. -/
def showing : Plugin Unit :=
  .pure "show" fun placeholder _ => .ok (.string placeholder.token)

/-- A transform that makes an array of a value and the parameters. -/
def listing : Transform where
  name := "list"
  apply value params := .ok (.value (.array (value :: params.map .string)))

/-- The setting in which there are these two besides `Plugin.echo` and the standard transforms. -/
def watching : Setting Unit where
  registry := { plugins := [.echo, showing], transforms := listing :: Transform.standard }

/-- A plugin that looks at the token gives the longer one a value of its own, which the transform then leaves as it is.
And a colon in a parameter, even behind a backslash, makes two parameters of it. -/
theorem resolve_piped_showing :
    let asText : WrittenTransform := ⟨"toString".toList, []⟩
    let listed : WrittenTransform := ⟨"list".toList, ["x\\:y".toList]⟩
    watching.options.maxDepth = none ∧ (∀ module, watching.options.allows module = true) ∧
    ((watching.resolve none (bracket "show:me:a".toList)).run { state := () } =
        (.ok (.string "\x7b\x7bshow:me:a\x7d\x7d"), { state := () }) ∧
      watching.registry.through (.string "\x7b\x7bshow:me:a\x7d\x7d") asText.call =
        .ok (.string "\x7b\x7bshow:me:a\x7d\x7d") ∧
      (watching.resolve none (bracket (piped "show:me:a".toList [asText]))).run { state := () } =
        (.ok (.string "\x7b\x7bshow:me:a|toString\x7d\x7d"), { state := () })) ∧
    (watching.resolve none (bracket "echo:say:a".toList)).run { state := () } = (.ok (.string "a"), { state := () }) ∧
      watching.registry.through (.string "a") listed.call = .ok (.array [.string "a", .string "x\\:y"]) ∧
      (watching.resolve none (bracket (piped "echo:say:a".toList [listed]))).run { state := () } =
        (.ok (.array [.string "a", .string "x\\", .string "y"]), { state := () }) := by
  intro asText listed
  have hshow : bracket (piped "show:me:a".toList [asText]) = "\x7b\x7bshow:me:a|toString\x7d\x7d".toList := by decide
  have hlist : bracket (piped "echo:say:a".toList [listed]) = "\x7b\x7becho:say:a|list:x\\:y\x7d\x7d".toList := by decide
  have hshowing : watching.prepare "\x7b\x7bshow:me:a|toString\x7d\x7d".toList =
      .ok (⟨"\x7b\x7bshow:me:a|toString\x7d\x7d", "show", "me", ["a"], [⟨"toString", []⟩]⟩, some showing) := rfl
  have hlisting : watching.prepare "\x7b\x7becho:say:a|list:x\\:y\x7d\x7d".toList =
      .ok (⟨"\x7b\x7becho:say:a|list:x\\:y\x7d\x7d", "echo", "say", ["a"], [⟨"list", ["x\\", "y"]⟩]⟩,
        some .echo) := rfl
  refine ⟨rfl, fun _ => rfl, ⟨rfl, rfl, ?_⟩, rfl, rfl, ?_⟩
  · rw [hshow, run_resolve hshowing]
    rfl
  · rw [hlist, run_resolve hlisting]
    rfl

end Setting

end Template
